import Starfall.Server.ConnectionTable
import Starfall.Unity.EditCharacterRuns
import Starfall.Unity.ToServer

/-! A character's way from the Unity client to the web pages.  Its colors are saved as a text, the
packet with the text is taken by the server, the text becomes a row of the table `CONSOLE`, and a
page shows the colors that the mesh had. -/

namespace Starfall.Messages

open ProofKit ProofKit.Runs Vars Receive EditCharacter

variable (numbers : NumberFormatter) {R : Type} (format : R → Str)

/-- The object that is inserted for a text of the scene. -/
def savedRow (look : String → Color R) (time : Time) : Var :=
  (JSONConsoleStruct.new.copy (savedVar format look)).2.zip time

/-- What the pages show of it. -/
def shownSaved (look : String → Color R) (time : Time) : Var :=
  .struct [(Str.ofString "body", .struct (savedBody format look)),
    (Str.ofString "foot", .struct []), (Str.ofString "head", shownHead "Parts" time)]

theorem copy_saved (look : String → Color R) :
    (JSONConsoleStruct.new.copy (savedVar format look)).2 =
      ⟨[(Str.ofString "datetime", .string (Str.ofString "--")),
        (Str.ofString "name", .string (Str.ofString "Parts"))], savedBody format look, []⟩ := rfl

theorem mem_savedBody {look : String → Color R} {m : Str × Var}
    (hm : m ∈ savedBody format look) : ∃ members, m.2 = .struct members := by
  rcases SortedMaps.mem_of_mem_insertAll hm with hm | hm
  · cases hm
  · obtain ⟨group, -, rfl⟩ := List.mem_map.mp hm
    exact ⟨_, rfl⟩

variable {format}

theorem parse_saved (hformat : Printable format) (look : String → Color R) :
    parse (savedText format look) = .ok (savedVar format look) := by
  have hdocument := savedText_document hformat look
  rw [objectVar_saved] at hdocument
  exact hdocument.parse_eq

theorem literal_saved (hformat : Printable format) (look : String → Color R) :
    Literal false (savedVar format look) := by
  have hdocument := savedText_document hformat look
  rw [objectVar_saved] at hdocument
  exact hdocument.literal

/-- The row is shown with the time and all colors. -/
theorem jsonOf_saved (look : String → Color R) (time : Time) :
    jsonOf numbers true (savedRow format look time) =
      jsonOf numbers true (shownSaved format look time) := by
  have hhead : set [(Str.ofString "datetime", .string (Str.ofString "--")),
      (Str.ofString "name", .string (Str.ofString "Parts"))] "datetime" (.string time.text) =
        [(Str.ofString "datetime", .string time.text),
          (Str.ofString "name", .string (Str.ofString "Parts"))] := rfl
  rw [savedRow, copy_saved, zip_eq]
  dsimp only
  rw [hhead, shownSaved, shownHead]
  simp only [jsonOf, jsonOfMembers]

/-- The text is a plain message. -/
theorem plain_saved (hformat : Printable format) (look : String → Color R) (time : Time) :
    (Printing.message (savedText format look) time).Plain := by
  intro var hvar
  rw [parse_saved hformat look] at hvar
  cases hvar
  refine ⟨literal_saved hformat look, ?_⟩
  rw [copy_saved]
  intro m hm s hs
  rcases hm with hm | hm | hm
  · simp only [List.mem_cons, List.not_mem_nil, or_false] at hm
    rcases hm with rfl | rfl
    · cases hs
      decide
    · cases hs
      decide
  · obtain ⟨members, hmembers⟩ := mem_savedBody format hm
    rw [hs] at hmembers
    cases hmembers
  · cases hm

theorem consoleRow_saved (hformat : Printable format) (look : String → Color R) (time : Time) :
    consoleRow numbers (savedText format look) time =
    .ok (rowText numbers (savedRow format look time)) := by
  rw [consoleRow, parse_saved hformat look]
  rfl

/-- The insertions of some texts, all at one time. -/
def saves (format : R → Str) (looks : List (String → Color R)) (time : Time) : List Printing :=
  looks.map fun look => .message (savedText format look) time

theorem printed_saves (hformat : Printable format) (looks : List (String → Color R)) (time : Time) :
    printed (saves format looks time) = looks.map fun look => savedRow format look time := by
  rw [printed, saves, List.filterMap_map]
  refine List.filterMap_eq_map_iff_forall_eq_some.mpr fun look _ => ?_
  have hvar : (Printing.message (savedText format look) time).var =
      .ok (savedRow format look time) := by
    rw [Printing.var, parse_saved hformat look]
    rfl
  rw [Function.comp_apply, hvar]
  rfl

theorem inserted_saves (hformat : Printable format) (looks : List (String → Color R))
    (time : Time) : Inserted numbers
      (looks.map fun look => .message (rowText numbers (savedRow format look time)))
      (saves format looks time) := by
  constructor
  · refine List.forall₂_map_left_iff.mpr (List.forall₂_map_right_iff.mpr
      (List.forall₂_same.mpr fun look _ => ?_))
    exact .message (consoleRow_saved numbers hformat look time)
  · intro l hl
    obtain ⟨look, -, rfl⟩ := List.mem_map.mp hl
    trivial

theorem ascii_saved (hformat : Printable format) (look : String → Color R) :
    (Unity.Text.ofBytes (savedText format look)).Ascii := by
  intro c hc
  obtain ⟨a, ha, rfl⟩ := List.mem_map.mp hc
  have hsmall : ∀ a : UInt8, a < 128 → a.toUInt16 < 128 := forall_bytes (by decide +kernel)
  exact hsmall a (ascii_savedText hformat look a ha)

/-- What the handler of the server makes of the texts in a player's queue. -/
theorem readConsole_saved (hformat : Printable format) {looks : List (String → Color R)}
    {player : Unity.Player UInt32}
    (hqueue : player.consoleQueue =
      looks.map fun look => Unity.Text.ofBytes (savedText format look))
    (hfits : (Unity.GameClient.body .ConsoleData player).length < 2 ^ 31) {print : Str → Printed}
    {time : Time}
    (hprint : ∀ data text, consoleRow numbers data time = .ok text →
      print data = .printed text) :
    ∃ c, readConsole print (.start (Unity.GameClient.body .ConsoleData player)) =
      .ok ((.returned true,
        looks.map fun look => .message (rowText numbers (savedRow format look time))), c) := by
  have hascii : ∀ s ∈ player.consoleQueue, s.Ascii := by
    intro s hs
    rw [hqueue] at hs
    obtain ⟨look, -, rfl⟩ := List.mem_map.mp hs
    exact ascii_saved hformat look
  obtain ⟨strings, hsame, -, hread⟩ := Unity.GameClient.console_understood hascii hfits
  have hstrings : strings = looks.map (savedText format) := by
    have hinjective : Function.Injective Unity.Text.ofBytes :=
      List.map_injective_iff.mpr fun _ _ => UInt8.toUInt16_inj.mp
    refine List.map_injective_iff.mpr hinjective ?_
    rw [hsame, hqueue, List.map_map]
    rfl
  have hrow : ∀ data ∈ strings,
      print data = .printed ((consoleRow numbers data time).toOption.getD []) := by
    intro data hdata
    rw [hstrings] at hdata
    obtain ⟨look, -, rfl⟩ := List.mem_map.mp hdata
    have htext := consoleRow_saved numbers hformat look time
    rw [hprint _ _ htext, htext]
    rfl
  have hentries : strings.map (fun data =>
      ConsoleEntry.message ((consoleRow numbers data time).toOption.getD [])) =
        looks.map fun look => .message (rowText numbers (savedRow format look time)) := by
    rw [hstrings, List.map_map]
    refine List.map_congr_left fun look _ => ?_
    rw [Function.comp_apply, consoleRow_saved numbers hformat look time]
    rfl
  have hbody := hread print
  rw [Unity.printed_all hrow, hentries] at hbody
  exact ⟨_, hbody⟩

theorem run_saves (hformat : Printable format) (looks : List (String → Color R)) (time : Time)
    {past : List Printing} {rows : List Str} (run : (table numbers).Run past rows) :
    (table numbers).Run (past ++ saves format looks time)
      (rows ++ looks.map fun look => rowText numbers (savedRow format look time)) := by
  have hrun := (inserted_saves numbers hformat looks time).run run
  rw [printed_saves hformat, List.map_map] at hrun
  exact hrun

/-- Behind the objects that were there, those of the texts are in their order. -/
theorem insertedAt_saves (hformat : Printable format) {looks : List (String → Color R)}
    (time : Time) {past : List Printing} {rows : List Str} (run : (table numbers).Run past rows)
    {i : Nat} (hi : i < looks.length) :
    insertedAt (past ++ saves format looks time) (rows.length + i + 1) =
      savedRow format looks[i] time := by
  have hlength : rows.length = (printed past).length := by
    rw [rows_eq numbers run, List.length_map]
  have hprinted : printed (past ++ saves format looks time) =
      printed past ++ looks.map fun look => savedRow format look time := by
    rw [← printed_saves hformat, printed, List.filterMap_append]
    rfl
  rw [insertedAt, hprinted, Nat.add_sub_cancel, hlength,
    List.getD_append_right _ _ _ _ (by omega), Nat.add_sub_cancel_left,
    List.getD_eq_getElem _ _ (by rwa [List.length_map]), List.getElem_map]

variable {F : Type} {inspector : Fin 13 → Color R}
  {standardColors : List (EditCharacterColor R)} {transform : List PlayerChildObject}
  {materials : Nat → Color R} {clicks : List Click} {s : Script R}

/-- Texts that were saved are texts of colors that can be chosen. -/
theorem looks_of_run
    (run : (scene format standardColors inspector transform materials).Run clicks s)
    {texts : List Str} (htexts : ∀ text ∈ texts, text ∈ s.consoleQueue) :
    ∃ looks : List (String → Color R), texts = looks.map (savedText format) ∧
      ∀ look ∈ looks, ∀ name, Palette inspector standardColors (look name) := by
  induction texts with
  | nil => exact ⟨[], rfl, List.forall_mem_nil _⟩
  | cons text texts ih =>
    rw [List.forall_mem_cons] at htexts
    obtain ⟨looks, rfl, hlooks⟩ := ih htexts.2
    obtain ⟨look, hpalette, rfl⟩ := (edited_run run).saved text htexts.1
    exact ⟨look :: looks, rfl, List.forall_mem_cons.mpr ⟨hpalette, hlooks⟩⟩

/-- Texts that were saved in any run of the scene, and that a player sends, are all printed by the
handler.  Their rows come behind those of a table of plain messages, and every page of it is JSON
that stands for what was inserted, with the colors that were saved. -/
theorem saved_shown (storage : Storage) (hformat : Printable format)
    (run : (scene format standardColors inspector transform materials).Run clicks s)
    {texts : List Str} (htexts : ∀ text ∈ texts, text ∈ s.consoleQueue)
    {player : Unity.Player UInt32} (hqueue : player.consoleQueue = texts.map Unity.Text.ofBytes)
    (hfits : (Unity.GameClient.body .ConsoleData player).length < 2 ^ 31) {server : Server F}
    {time : Time} (hprint : ∀ data text, consoleRow numbers data time = .ok text →
      server.print data = .printed text) (session : Session F) (head : Packet Head)
    {past : List Printing} {rows : List Str} (htable : (table numbers).Run past rows)
    (hplain : ∀ l ∈ past, l.Plain) :
    ∃ looks : List (String → Color R), texts = looks.map (savedText format) ∧
      (∀ look ∈ looks, ∀ name, Palette inspector standardColors (look name)) ∧
      ∃ added more, consoleData server session
          (.start (Unity.GameClient.body .ConsoleData player)) head =
            .ok (.returned true, { session with console := session.console ++ added }) ∧
        Inserted numbers added (saves format looks time) ∧
        (table numbers).Run (past ++ saves format looks time) (rows ++ more) ∧
        (∀ i (hi : i < looks.length),
          jsonOf numbers true
              (insertedAt (past ++ saves format looks time) (rows.length + i + 1)) =
            jsonOf numbers true (shownSaved format looks[i] time)) ∧
        ∀ page : Console.Page,
          (∀ id ∈ page.messages, 1 ≤ id ∧ id ≤ (rows ++ more).length) →
            ∃ text, pageText numbers storage (rows ++ more) page = .ok text ∧
              (Json.parse text).bind Json.Value.decoded =
                some (shownPage numbers (past ++ saves format looks time) page) := by
  obtain ⟨looks, rfl, hpalette⟩ := looks_of_run run htexts
  rw [List.map_map] at hqueue
  obtain ⟨c, hread⟩ := readConsole_saved numbers hformat hqueue hfits hprint
  have hrun := run_saves numbers hformat looks time htable
  have hallPlain : ∀ l ∈ past ++ saves format looks time, l.Plain := by
    refine List.forall_mem_append.mpr ⟨hplain, fun l hl => ?_⟩
    obtain ⟨look, -, rfl⟩ := List.mem_map.mp hl
    exact plain_saved hformat look time
  refine ⟨looks, rfl, hpalette, _, _, ?_, inserted_saves numbers hformat looks time, hrun,
    fun i hi => ?_, fun page hids => pageText_plain numbers storage hrun hallPlain hids⟩
  · rw [consoleData, hread]
    rfl
  · rw [insertedAt_saves numbers hformat time htable hi, jsonOf_saved]

/-! The red helmet, sent by a player who has nothing else to send. -/

def helmetLook (name : String) : Color Bool := if name = "Helmet" then red.color else white

def helmetPlayer : Unity.Player UInt32 :=
  { Unity.GameClient.rootPlayer with
    consoleQueue := [Unity.Text.ofBytes (savedText bit helmetLook)] }

/-- A server that prints what the parser does not throw at. -/
def printing : Server UInt32 where
  login := []
  entities := ⟨[], List.nodup_nil⟩
  print data := match consoleRow decimal data midnight with
    | .ok text => .printed text
    | .error _ => .threw

theorem helmet_pushed : ∃ s, helmetScene.Run (helmetClicks ++ [.ok true]) s ∧
    s.consoleQueue = [savedText bit helmetLook] := by
  have hexec : (System.exec (fun s click => onGUI bit [⟨"White", white⟩, red] click s)
      (start (fun _ => white) helmet fun _ => white) (helmetClicks ++ [.ok true])).map
        (·.consoleQueue) = some [savedText bit helmetLook] := by
    decide +kernel
  obtain ⟨s, hs, hqueue⟩ := Option.map_eq_some_iff.mp hexec
  have hrun : helmetScene.Run ([] ++ (helmetClicks ++ [.ok true])) s :=
    System.Run.of_exec (fun _ _ _ h => h) (.nil rfl) hs
  exact ⟨s, hrun, hqueue⟩

theorem helmet_shown : ∃ looks added rows text,
    consoleData printing (.open ⟨⟨0, 0, 0⟩, ⟨0, 0, 0, 1⟩⟩ 1)
        (.start (Unity.GameClient.body .ConsoleData helmetPlayer)) ⟨⟨0, 0, 0, 0⟩, []⟩ =
      .ok (.returned true,
        { Session.open ⟨⟨0, 0, 0⟩, ⟨0, 0, 0, 1⟩⟩ 1 with console := added }) ∧
      [savedText bit helmetLook] = looks.map (savedText bit) ∧
      pageText decimal cString rows ⟨[1], 1, 1⟩ = .ok text ∧
      (Json.parse text).bind Json.Value.decoded =
        some (shownPage decimal (saves bit looks midnight) ⟨[1], 1, 1⟩) := by
  obtain ⟨s, run, hqueue⟩ := helmet_pushed
  have htexts : ∀ text ∈ [savedText bit helmetLook], text ∈ s.consoleQueue := by
    rw [hqueue]
    exact fun _ h => h
  have hplayer : helmetPlayer.consoleQueue =
      [savedText bit helmetLook].map Unity.Text.ofBytes := rfl
  have hprint (data text : Str) (h : consoleRow decimal data midnight = .ok text) :
      printing.print data = .printed text := by
    simp only [printing, h]
  obtain ⟨looks, heq, -, added, more, hcall, -, hrun, -, hpage⟩ :=
    saved_shown decimal cString printable_bit run htexts hplayer (by decide +kernel) hprint
      (.open ⟨⟨0, 0, 0⟩, ⟨0, 0, 0, 1⟩⟩ 1) ⟨⟨0, 0, 0, 0⟩, []⟩ (.nil rfl) nofun
  have hlength : ([] ++ more).length = 1 := by
    rw [rows_eq decimal hrun, List.nil_append, printed_saves printable_bit, List.length_map,
      List.length_map, ← List.length_map (savedText bit), ← heq]
    rfl
  obtain ⟨text, htext, hjson⟩ := hpage ⟨[1], 1, 1⟩ (by
    rw [hlength]
    decide)
  exact ⟨looks, added, _, text, hcall, heq, htext, hjson⟩

end Starfall.Messages
