import Starfall.ProofKit.Runs
import Starfall.Server.LoginServer
import Starfall.Server.Objects

/-! Connections.  A connection takes packets one after another, while the entity map changes under
it.  Between two packets the queues of its player are empty. -/

namespace Starfall.Receive

open Buffer ProofKit.Reading ProofKit.Runs

variable {F : Type}

/-- A packet, with the entity map and the console as its handler finds them. -/
structure Arrival (F : Type) where
  head : Packet Head
  body : List UInt8
  entities : EntityMap F
  print : Str → Printed

section Packets

variable [FloatBits F] [Add F] [Sub F] [Mul F] [LE F] [DecidableLE F]

/-- A connection over the packets whose bodies decode, up to a packet that closes it.  The table
`LOGIN` holds `rows` throughout. -/
def connection (rows : List LoginRow) : System (Session F) (Arrival F) where
  init s := ∃ transform sessionid, s = Session.open transform sessionid
  step s a s' := ∃ outcome, dispatch ⟨rows, a.entities, a.print⟩ s (.start a.body) a.head =
    .ok (outcome, s') ∧ outcome ≠ .threw

theorem connection_step_cases {rows : List LoginRow} {s s' : Session F} {a : Arrival F}
    (h : (connection rows).step s a s') :
    (map a.head.value.opcode.toUInt32 = none ∧ s' = s) ∨
    ∃ f outcome mid, map a.head.value.opcode.toUInt32 = some f ∧
      call ⟨rows, a.entities, a.print⟩ f s (.start a.body) a.head = .ok (outcome, mid) ∧
      s' = mid.flush := by
  obtain ⟨outcome, h, hopen⟩ := h
  unfold dispatch at h
  cases hmap : map a.head.value.opcode.toUInt32 with
  | none =>
    rw [hmap] at h
    cases h
    exact .inl ⟨rfl, rfl⟩
  | some f =>
    rw [hmap] at h
    obtain ⟨⟨o, mid⟩, hcall, h⟩ := except_bind_eq_ok h
    refine .inr ⟨f, o, mid, rfl, hcall, ?_⟩
    cases o with
    | notFound =>
      cases h
      rfl
    | returned ok =>
      cases h
      rfl
    | threw =>
      cases h
      exact absurd rfl hopen

omit [Add F] [Sub F] [Mul F] [LE F] [DecidableLE F] in
theorem login_settled (rows : List LoginRow) {p : Player F} (packet : LoginStruct)
    (h : p.Settled) : (login rows p packet).2.Settled := by
  obtain ⟨-, hdestroy, htransform⟩ := h
  unfold login Send.loginReply Send.createEntityData
  cases tryLogin rows packet with
  | none => exact ⟨rfl, hdestroy, htransform⟩
  | some loginStruct => exact ⟨rfl, hdestroy, htransform⟩

theorem call_settled {server : Server F} {f : ReceiveFunction} {s s' : Session F} {buffer : Buffer}
    {head : Packet Head} {outcome : Outcome}
    (h : call server f s buffer head = .ok (outcome, s')) (settled : s.player.Settled) :
    s'.player.Settled := by
  cases f with
  | LoginData =>
    obtain ⟨⟨⟨packet, dump⟩, c⟩, -, h⟩ := except_bind_eq_ok h
    dsimp only at h
    split at h
    · cases h
      exact settled
    · cases h
      exact login_settled server.login packet settled
  | ConsoleData =>
    obtain ⟨⟨⟨o, entries⟩, c⟩, -, h⟩ := except_bind_eq_ok h
    cases h
    exact settled
  | TransformData =>
    obtain ⟨⟨packet, c⟩, -, h⟩ := except_bind_eq_ok h
    cases h
    exact settled
  | ObjectsData =>
    obtain ⟨⟨packet, c⟩, hread, -⟩ := except_bind_eq_ok h
    obtain ⟨reply, moves, hsent⟩ := objectsData_eq server s head hread
    rw [call, hsent] at h
    cases h
    exact Player.clearAll_settled (requesting s.player packet)

/-- A handler finds the queues of its player empty. -/
theorem connection_settled {rows : List LoginRow} {as : List (Arrival F)} {s : Session F}
    (run : (connection rows).Run as s) : s.player.Settled := by
  refine run.invariant (I := fun _ s => s.player.Settled) ?_ ?_
  · rintro s ⟨transform, sessionid, rfl⟩
    exact ⟨rfl, rfl, rfl⟩
  · intro as s a s' _ settled step
    rcases connection_step_cases step with ⟨-, rfl⟩ | ⟨f, outcome, mid, -, hcall, rfl⟩
    · exact settled
    · have hmid : mid.player.Settled := call_settled hcall settled
      exact hmid

end Packets

end Starfall.Receive
