import Starfall.ProofKit.Runs
import Starfall.Server.Responses

/-! The list of item types.  `NewItemType` stores what it is sent as it is, and the texts are put
between brackets and commas when they are asked for.  So the list is right exactly when each of them
is the text of an object, and there is one. -/

namespace Starfall.Http

open ProofKit ProofKit.Runs

/-- Requests that `NewItemType` accepts, on a table that is empty at first. -/
def insertions : System Database Request where
  init database := database.itemTypes = some []
  step database req database' :=
    ((newItemType req).on ⟨.fresh, database⟩).1 = .ok true ∧
      database' = ((newItemType req).on ⟨.fresh, database⟩).2.database

/-- What `TryItemTypes` writes. -/
def written (database : Database) : Str := (tryItemTypes.on ⟨.fresh, database⟩).2.response.body

/-- The bodies of the requests are the texts of objects, and what is written is the text of an
object whose only member is the array of them. -/
def Listed (reqs : List Request) (text : Str) : Prop :=
  ∃ objects : List Json.Value, reqs.map (fun req => Json.parse req.body) = objects.map some ∧
    (∀ object ∈ objects, object.isObject) ∧
    Json.parse text = some (.object [(Str.ofString "itemTypes", .array objects)])

theorem newItemType_true {database : Database} {req : Request}
    (h : ((newItemType req).on ⟨.fresh, database⟩).1 = .ok true) {itemTypes : List Str}
    (hitemTypes : database.itemTypes = some itemTypes) :
    ((newItemType req).on ⟨.fresh, database⟩).2.database.itemTypes =
      some (itemTypes ++ [req.body]) := by
  rw [newItemType, on_insertOperation inserts_itemType, hitemTypes] at h ⊢
  split at h
  · cases h
  · rename_i hpos
    split at h
    · cases h
    · rename_i hshort
      rw [if_neg hpos, if_neg hshort]
      rfl

/-- The table holds the bodies of the requests, in their order. -/
theorem itemTypes_run {reqs : List Request} {database : Database}
    (run : insertions.Run reqs database) :
    database.itemTypes = some (reqs.map Request.body) := by
  refine run.invariant (I := fun reqs database =>
    database.itemTypes = some (reqs.map Request.body)) (fun _ h => h) ?_
  rintro reqs database req database' _ h ⟨hok, rfl⟩
  rw [newItemType_true hok h, List.map_append]
  rfl

theorem written_eq {database : Database} {itemTypes : List Str}
    (h : database.itemTypes = some itemTypes) :
    written database = if itemTypes = [] then [] else itemTypesText itemTypes := by
  cases itemTypes <;> simp [written, tryItemTypes, h, Response.fresh]

/-- The texts of objects make the text of an object with their array. -/
theorem parse_itemTypesText {texts : List Str} {objects : List Json.Value}
    (h : texts.map Json.parse = objects.map some) (hobjects : ∀ object ∈ objects, object.isObject)
    (hne : texts ≠ []) : Json.parse (itemTypesText texts) =
      some (.object [(Str.ofString "itemTypes", .array objects)]) := by
  have hends : ∀ object ∈ objects, object.Ends := by
    intro object hobject
    have hobject := hobjects object hobject
    cases object with
    | object members => trivial
    | _ => cases hobject
  have hname : Json.readString .plain (Str.ofString "itemTypes" ++ [34]) =
      some (Str.ofString "itemTypes", []) := by decide
  rw [← Json.parse_array_member hname h hends hne]
  congr 1

theorem exists_objects {reqs : List Request}
    (h : ∀ req ∈ reqs, ∃ object, Json.parse req.body = some object ∧ object.isObject) :
    ∃ objects : List Json.Value, reqs.map (fun req => Json.parse req.body) = objects.map some ∧
      ∀ object ∈ objects, object.isObject := by
  induction reqs with
  | nil => exact ⟨[], rfl, by simp⟩
  | cons req reqs ih =>
    obtain ⟨object, hparse, hobject⟩ := h req List.mem_cons_self
    obtain ⟨objects, hobjects, hall⟩ := ih fun other hother =>
      h other (List.mem_cons_of_mem _ hother)
    refine ⟨object :: objects, ?_, ?_⟩
    · rw [List.map_cons, List.map_cons, hparse, hobjects]
    · exact List.forall_mem_cons.mpr ⟨hobject, hall⟩

/-- The list that is written is right exactly when a body was inserted, and all of them are the
texts of objects. -/
theorem listed_iff {reqs : List Request} {database : Database}
    (run : insertions.Run reqs database) :
    Listed reqs (written database) ↔ reqs ≠ [] ∧
      ∀ req ∈ reqs, ∃ object, Json.parse req.body = some object ∧ object.isObject := by
  rw [written_eq (itemTypes_run run)]
  constructor
  · rintro ⟨objects, hparse, hobjects, htext⟩
    refine ⟨?_, ?_⟩
    · rintro rfl
      cases htext
    · intro req hreq
      have hmem : Json.parse req.body ∈ objects.map some := by
        rw [← hparse]
        exact List.mem_map_of_mem hreq
      obtain ⟨object, hobject, hsome⟩ := List.mem_map.mp hmem
      exact ⟨object, hsome.symm, hobjects object hobject⟩
  · rintro ⟨hne, hbodies⟩
    obtain ⟨objects, hparse, hobjects⟩ := exists_objects hbodies
    have hne' : reqs.map Request.body ≠ [] := by simpa using hne
    refine ⟨objects, hparse, hobjects, ?_⟩
    rw [if_neg hne']
    exact parse_itemTypesText (by rwa [List.map_map]) hobjects hne'

/-- A request with a body. -/
def insertion (text : String) : Request where
  uri := Str.ofString "/ajax/itemtype/new"
  contentLength := (Str.ofString text).length
  stream := Str.ofString text

def sword : Request := insertion "\x7b\"name\": \"Sword\"\x7d"

def shield : Request := insertion "\x7b\"name\": \"Shield\"\x7d"

/-- A body that is no JSON. -/
def oops : Request := insertion "oops"

theorem sword_listed : ∃ database, insertions.Run [sword, shield] database ∧
    Listed [sword, shield] (written database) := by
  have hstart : insertions.Run [] emptyDatabase := .nil rfl
  have hfirst := hstart.snoc (l := sword) ⟨rfl, rfl⟩
  have hrun := hfirst.snoc (l := shield) ⟨rfl, rfl⟩
  have hbody (req : Request) (h : (Json.parse req.body).map Json.Value.isObject = some true) :
      ∃ object, Json.parse req.body = some object ∧ object.isObject :=
    Option.map_eq_some_iff.mp h
  refine ⟨_, hrun, (listed_iff hrun).mpr ⟨List.cons_ne_nil _ _, ?_⟩⟩
  simp only [List.forall_mem_append, List.forall_mem_cons, List.nil_append]
  exact ⟨⟨hbody sword (by decide +kernel), List.forall_mem_nil _⟩,
    hbody shield (by decide +kernel), List.forall_mem_nil _⟩

/-- One bad body spoils the list. -/
theorem oops_not_listed :
    ∃ database, insertions.Run [sword, oops] database ∧ ¬Listed [sword, oops] (written database) ∧
      Json.parse (written database) = none := by
  have hstart : insertions.Run [] emptyDatabase := .nil rfl
  have hrun := hstart.snoc (l := sword) ⟨rfl, rfl⟩
  have hboth := hrun.snoc (l := oops) ⟨rfl, rfl⟩
  have htext : Json.parse (itemTypesText [sword.body, oops.body]) = none := by
    decide +kernel
  refine ⟨_, hboth, ?_, htext⟩
  rintro ⟨objects, -, -, hparse⟩
  cases htext.symm.trans hparse

end Starfall.Http
