import Starfall.Server.Connection
import Starfall.Server.ConsoleTable

/-! What connections insert into the table `CONSOLE`.  The entries that the handlers leave are
insertions of the table, one after the other, so that what holds of the table over its runs holds of
what any packets put there. -/

namespace Starfall.Messages

open ProofKit ProofKit.Reading ProofKit.Runs Vars Receive

variable (numbers : NumberFormatter) {F : Type}

/-- The console prints what the parser makes of a message. -/
def Prints (print : Str → Printed) : Prop :=
  ∀ data text, print data = .printed text → ∃ time, consoleRow numbers data time = .ok text

/-- The insertion that an entry stands for. -/
inductive Inserts : ConsoleEntry → Printing → Prop
  | head {packet : Packet Head} {time : Time} : Inserts (.head packet) (.head packet time)
  | login {packet : Packet LoginStruct} {time : Time} : Inserts (.login packet) (.login packet time)
  | message {data text : Str} {time : Time} (h : consoleRow numbers data time = .ok text) :
      Inserts (.message text) (.message data time)

/-- Entries that stand for insertions of the table, in their order. -/
def Inserted (entries : List ConsoleEntry) (ls : List Printing) : Prop :=
  List.Forall₂ (Inserts numbers) entries ls ∧ ∀ l ∈ ls, l.Read

theorem Inserted.nil : Inserted numbers [] [] := ⟨.nil, nofun⟩

theorem Inserted.append {entries entries' : List ConsoleEntry} {ls ls' : List Printing}
    (h : Inserted numbers entries ls) (h' : Inserted numbers entries' ls') :
    Inserted numbers (entries ++ entries') (ls ++ ls') :=
  ⟨List.rel_append h.1 h'.1, List.forall_mem_append.mpr ⟨h.2, h'.2⟩⟩

variable {numbers}

/-- Every insertion adds its row to the table. -/
theorem Inserts.step {entry : ConsoleEntry} {l : Printing} (h : Inserts numbers entry l)
    (hread : l.Read) (rows : List Str) :
    ∃ var, l.var = .ok var ∧ (table numbers).step rows l (rows ++ [rowText numbers var]) := by
  cases h with
  | head => exact ⟨_, rfl, table_step numbers rfl hread rows⟩
  | login => exact ⟨_, rfl, table_step numbers rfl hread rows⟩
  | @message data text time h =>
    obtain ⟨var, hvar, -⟩ := except_bind_eq_ok h
    have hmessage : Printing.var (.message data time) =
        .ok ((JSONConsoleStruct.new.copy var).2.zip time) := by
      rw [Printing.var, hvar]
      rfl
    exact ⟨_, hmessage, table_step numbers hmessage hread rows⟩

theorem Inserted.length {entries : List ConsoleEntry} {ls : List Printing}
    (h : Inserted numbers entries ls) :
    ((printed ls).map (rowText numbers)).length = entries.length := by
  obtain ⟨h, hread⟩ := h
  induction h with
  | nil => rfl
  | @cons entry l entries ls hentry h ih =>
    rw [List.forall_mem_cons] at hread
    obtain ⟨var, hvar, -⟩ := hentry.step hread.1 []
    rw [printed_cons hvar, List.map_cons, List.length_cons, ih hread.2, List.length_cons]

/-- The entries extend a run of the table by their rows. -/
theorem Inserted.run {entries : List ConsoleEntry} {ls past : List Printing} {rows : List Str}
    (h : Inserted numbers entries ls) (run : (table numbers).Run past rows) :
    (table numbers).Run (past ++ ls) (rows ++ (printed ls).map (rowText numbers)) := by
  obtain ⟨h, hread⟩ := h
  induction h generalizing past rows with
  | nil => simpa [printed] using run
  | @cons entry l entries ls hentry h ih =>
    rw [List.forall_mem_cons] at hread
    obtain ⟨var, hvar, hstep⟩ := hentry.step hread.1 rows
    have hrest := ih (run.snoc hstep) hread.2
    rw [printed_cons hvar, List.map_cons]
    simpa using hrest

theorem inserted_messages {print : Str → Printed} (hprint : Prints numbers print) {n : Nat}
    {c c' : Buffer} {outcome : Outcome} {entries : List ConsoleEntry}
    (h : consoleMessages print n c = .ok ((outcome, entries), c')) :
    ∃ ls, Inserted numbers entries ls := by
  induction n generalizing c outcome entries with
  | zero =>
    cases h
    exact ⟨[], .nil numbers⟩
  | succ n ih =>
    obtain ⟨data, c1, -, h⟩ := bind_eq_ok h
    cases hdata : print data with
    | printed text =>
      rw [hdata] at h
      obtain ⟨⟨o, rest⟩, c2, hrest, h⟩ := bind_eq_ok h
      cases h
      obtain ⟨time, htime⟩ := hprint data text hdata
      obtain ⟨ls, hls⟩ := ih hrest
      exact ⟨.message data time :: ls, .cons (.message htime) hls.1,
        List.forall_mem_cons.mpr ⟨trivial, hls.2⟩⟩
    | consoleException =>
      rw [hdata] at h
      cases h
      exact ⟨[], .nil numbers⟩
    | threw =>
      rw [hdata] at h
      cases h
      exact ⟨[], .nil numbers⟩

section Packets

variable [FloatBits F] [Add F] [Sub F] [Mul F] [LE F] [DecidableLE F]

/-- What a handler adds to the console is inserted into the table. -/
theorem inserted_call {server : Server F} (hprint : Prints numbers server.print)
    {f : ReceiveFunction} {s s' : Session F} {buffer : Buffer} {head : Packet Head}
    (hhead : ∃ b c, Buffer.readHead b = .ok (head, c)) (time : Time) {outcome : Outcome}
    (h : call server f s buffer head = .ok (outcome, s')) :
    ∃ entries ls, s'.console = s.console ++ entries ∧ Inserted numbers entries ls := by
  have hnone {mid : Session F} (heq : mid.console = s.console) :
      ∃ entries ls, mid.console = s.console ++ entries ∧ Inserted numbers entries ls :=
    ⟨[], [], by rw [heq, List.append_nil], .nil numbers⟩
  cases f with
  | LoginData =>
    obtain ⟨⟨packet, c⟩, hread, h⟩ := except_bind_eq_ok h
    have hinserted : Inserted numbers [.head head, .login packet]
        [.head head time, .login packet time] := by
      refine ⟨.cons .head (.cons .login .nil), ?_⟩
      simp only [List.forall_mem_cons]
      exact ⟨hhead, ⟨buffer, c, hread⟩, nofun⟩
    dsimp only at h
    split at h
    · cases h
      exact ⟨_, _, rfl, hinserted⟩
    · cases h
      exact ⟨_, _, rfl, hinserted⟩
  | ConsoleData =>
    obtain ⟨⟨⟨o, entries⟩, c⟩, hread, h⟩ := except_bind_eq_ok h
    cases h
    obtain ⟨nMessages, c1, -, hread⟩ := bind_eq_ok hread
    obtain ⟨ls, hls⟩ := inserted_messages hprint hread
    exact ⟨entries, ls, rfl, hls⟩
  | TransformData =>
    obtain ⟨⟨packet, c⟩, -, h⟩ := except_bind_eq_ok h
    cases h
    exact hnone rfl
  | ObjectsData =>
    obtain ⟨⟨packet, c⟩, -, h⟩ := except_bind_eq_ok h
    dsimp only at h
    split at h
    · cases h
      exact hnone rfl
    · cases h
      exact hnone rfl

/-- Whatever packets a connection takes, its entries are insertions of the table, and put its rows
behind those of any table. -/
theorem inserted_connection {logins : List LoginRow} (time : Time) {as : List (Arrival F)}
    {s : Session F} (run : (connection logins).Run as s)
    (hprint : ∀ a ∈ as, Prints numbers a.print)
    (hhead : ∀ a ∈ as, ∃ b c, Buffer.readHead b = .ok (a.head, c)) :
    ∃ ls, Inserted numbers s.console ls := by
  induction run with
  | nil init =>
    obtain ⟨transform, sessionid, rfl⟩ := init
    exact ⟨[], .nil numbers⟩
  | @snoc as s s' a run step ih =>
    rw [List.forall_mem_append] at hprint hhead
    obtain ⟨ls, hls⟩ := ih hprint.1 hhead.1
    have hlast : a ∈ [a] := List.mem_singleton_self a
    rcases connection_step_cases step with ⟨-, rfl⟩ | ⟨f, outcome, mid, -, hcall, rfl⟩
    · exact ⟨ls, hls⟩
    · obtain ⟨entries, more, heq, hmore⟩ :=
        inserted_call (hprint.2 a hlast) (hhead.2 a hlast) time hcall
      refine ⟨ls ++ more, ?_⟩
      have hflush : mid.flush.console = s.console ++ entries := heq
      rw [hflush]
      exact hls.append numbers hmore

/-- Whatever packets a connection takes, its entries put rows behind those of any table, and where
nothing in them has a zero, every page of it is written or the parser throws. -/
theorem connection_pages (storage : Storage) {logins : List LoginRow} (time : Time)
    {as : List (Arrival F)}
    {s : Session F} (run : (connection logins).Run as s)
    (hprint : ∀ a ∈ as, Prints numbers a.print)
    (hhead : ∀ a ∈ as, ∃ b c, Buffer.readHead b = .ok (a.head, c)) :
    (∃ ls, Inserted numbers s.console ls) ∧
      ∀ ls past rows, Inserted numbers s.console ls → (table numbers).Run past rows →
        ∃ more, more.length = s.console.length ∧
          (table numbers).Run (past ++ ls) (rows ++ more) ∧
          ((∀ l ∈ past ++ ls, l.Clean) → ∀ page : Console.Page,
            (∀ id ∈ page.messages, 1 ≤ id ∧ id ≤ (rows ++ more).length) →
              (∃ text, pageText numbers storage (rows ++ more) page = .ok text) ∨
                ∃ message,
                  pageText numbers storage (rows ++ more) page = .error (.dataFormat message)) := by
  refine ⟨inserted_connection time run hprint hhead, fun ls past rows hls htable => ?_⟩
  have hrun := hls.run htable
  exact ⟨_, hls.length, hrun, fun hclean page hids =>
    pageText_cases numbers storage hrun hclean hids⟩

end Packets

/-! A connection that takes a message for the console. -/

def printMidnight (data : Str) : Printed :=
  match consoleRow decimal data midnight with
  | .ok text => .printed text
  | .error _ => .threw

theorem prints_midnight : Prints decimal printMidnight := by
  intro data text h
  rw [printMidnight] at h
  cases hrow : consoleRow decimal data midnight with
  | ok row =>
    rw [hrow] at h
    cases h
    exact ⟨midnight, hrow⟩
  | error e =>
    rw [hrow] at h
    cases h

def consoleHead : Head := ⟨-1, 2, 4, -1⟩

theorem readHead_console : ∃ packet c, Buffer.readHead (.start (Buffer.writeHead consoleHead)) =
    .ok (packet, c) ∧ packet.value = consoleHead := ⟨_, _, rfl, rfl⟩

def greetingArrival (head : Packet Head) : Arrival UInt32 where
  head := head
  body := Buffer.writeVector Buffer.writeString [greeting]
  entities := ⟨[], List.nodup_nil⟩
  print := printMidnight

def greetingRow : Str :=
  rowText decimal ((JSONConsoleStruct.new.copy (objectVar greetingEntries)).2.zip midnight)

theorem consoleRow_greeting : consoleRow decimal greeting midnight = .ok greetingRow := by
  rw [consoleRow, greeting_document.parse_eq]
  rfl

theorem readConsole_greeting : ∃ c, readConsole printMidnight (.start
    (Buffer.writeVector Buffer.writeString [greeting])) =
      .ok ((.returned true, [.message greetingRow]), c) := by
  have hread : ((readConsole printMidnight (.start
      (Buffer.writeVector Buffer.writeString [greeting]))).toOption.map fun p => p.1) =
        some (.returned true, [.message greetingRow]) := by decide +kernel
  cases hresult : readConsole printMidnight (.start
      (Buffer.writeVector Buffer.writeString [greeting])) with
  | ok p =>
    rw [hresult] at hread
    obtain ⟨entries, c⟩ := p
    obtain rfl := Option.some.inj hread
    exact ⟨c, rfl⟩
  | error fault =>
    rw [hresult] at hread
    cases hread

theorem inserted_greeting :
    Inserted decimal [.message greetingRow] [.message greeting midnight] :=
  ⟨.cons (.message consoleRow_greeting) .nil, List.forall_mem_singleton.mpr trivial⟩

theorem greeting_inserted : ∃ head s row, (connection []).Run [greetingArrival head] s ∧
    (table decimal).Run [.message greeting midnight] [row] ∧
      ((∃ text, pageText decimal cString [row] ⟨[1], 1, 1⟩ = .ok text) ∨
        ∃ message, pageText decimal cString [row] ⟨[1], 1, 1⟩ = .error (.dataFormat message)) := by
  obtain ⟨⟨head, hex⟩, c, hread, rfl⟩ := readHead_console
  obtain ⟨c', hentries⟩ := readConsole_greeting
  obtain ⟨s, hstep, hconsole⟩ : ∃ s, (connection []).step (Session.open ⟨⟨0, 0, 0⟩, ⟨0, 0, 0, 1⟩⟩ 1)
      (greetingArrival ⟨consoleHead, hex⟩) s ∧ s.console = [.message greetingRow] := by
    have hmap : map consoleHead.opcode.toUInt32 = some .ConsoleData := by decide
    have hcall : dispatch ⟨[], ⟨[], List.nodup_nil⟩, printMidnight⟩
        (Session.open (F := UInt32) ⟨⟨0, 0, 0⟩, ⟨0, 0, 0, 1⟩⟩ 1)
        (.start (Buffer.writeVector Buffer.writeString [greeting])) ⟨consoleHead, hex⟩ =
          .ok (.returned true, { Session.open (F := UInt32) ⟨⟨0, 0, 0⟩, ⟨0, 0, 0, 1⟩⟩ 1 with
            console := [.message greetingRow] }) := by
      rw [dispatch, hmap]
      dsimp only
      rw [call, consoleData, hentries]
      rfl
    exact ⟨_, ⟨_, hcall, by decide⟩, rfl⟩
  have hstart : (connection []).Run [] (Session.open (F := UInt32) ⟨⟨0, 0, 0⟩, ⟨0, 0, 0, 1⟩⟩ 1) :=
    .nil ⟨_, _, rfl⟩
  have hpages := (connection_pages cString midnight (hstart.snoc hstep)
    (List.forall_mem_singleton.mpr prints_midnight)
    (List.forall_mem_singleton.mpr ⟨_, c, hread⟩)).2
  rw [hconsole] at hpages
  obtain ⟨more, hlength, hrun, hwritten⟩ := hpages _ [] [] inserted_greeting (.nil rfl)
  obtain ⟨row, rfl⟩ := List.length_eq_one_iff.mp hlength
  have hclean := clean_of_plain decimal hrun (List.forall_mem_singleton.mpr plain_greeting)
  have hids : ∀ id ∈ [1], 1 ≤ id ∧ id ≤ ([] ++ [row]).length := by simp
  exact ⟨_, s, row, hstart.snoc hstep, hrun, hwritten hclean ⟨[1], 1, 1⟩ hids⟩

end Starfall.Messages
