import Starfall.NativeClient.Client
import Starfall.ProofKit.Runs

/-! The network thread of the native client keeps nothing from one iteration to the next.  A header
that was received before its body is forgotten, and a part of a header or of a body is taken for the
whole.  So the packets that it dispatches are the first frames of the server as long as every
iteration that receives anything receives a whole frame with a body. -/

namespace Starfall.NativeClient

open Buffer ProofKit.Reading ProofKit.Runs

variable {S : Type} (handle : S → Buffer → Packet Head → Except Fault S)

/-- A client of a server that sent the frames, over the iterations of `Client::run`.  The labels are
what the two calls of `socket.receive` return. -/
def receiving (frames : List Frame) : System (Client S) (Status × Status) where
  init c := c.unread = frames.flatMap Frame.bytes ∧ c.dispatched = []
  step c statuses c' := run handle c statuses.1 statuses.2 = .ok c'

/-- No header is ready, or a whole header is, and all of the body that it says, which is not
empty. -/
def InFull (c : Client S) (statuses : Status × Status) : Prop :=
  statuses.1 = .notReady ∨ statuses.1 = .done Head.size ∧ ∀ head c',
    readHead (.start (c.unread.take Head.size)) = .ok (head, c') →
      0 < head.value.bodysize ∧ statuses.2 = .done head.value.bodysize.toNatClampNeg

variable {handle} {c : Client S} {frame : Frame} {suffix : List UInt8}

theorem run_frame (handle : S → Buffer → Packet Head → Except Fault S)
    (hunread : c.unread = frame.bytes ++ suffix) (hbody : frame.body ≠ []) :
    ∃ dump, run handle c (.done Head.size) (.done frame.body.length) =
      (defined (handle c.player (.start frame.body) ⟨frame.head, dump⟩)).map fun player =>
        { unread := suffix, player, dispatched := c.dispatched ++ [frame.packet] } := by
  obtain ⟨dump, d, hread⟩ := frame.readHead_bytes
  refine ⟨dump, ?_⟩
  rw [run, hunread, except_bind_of_ok (receiveBytes_head frame suffix)]
  dsimp only
  rw [if_pos rfl, hread, defined_ok, except_bind_of_ok rfl]
  dsimp only
  rw [if_pos (frame.head_bodysize_pos.mpr hbody), frame.head_bodysize_toNat,
    except_bind_of_ok (receiveBytes_all suffix hbody)]
  dsimp only
  rw [if_pos (List.length_pos_iff.mpr hbody), Nat.sub_self, List.replicate_zero, List.append_nil]
  cases handle c.player (.start frame.body) ⟨frame.head, dump⟩ <;> rfl

theorem inFull_frame (hunread : c.unread = frame.bytes ++ suffix) (body : Status) :
    InFull c (.done Head.size, body) ↔ frame.body ≠ [] ∧ body = .done frame.body.length := by
  obtain ⟨dump, d, hread⟩ := frame.readHead_bytes
  rw [InFull, hunread, frame.take_bytes, hread, ← frame.head_bodysize_pos,
    ← frame.head_bodysize_toNat]
  constructor
  · rintro (h | ⟨-, h⟩)
    · cases h
    · exact h ⟨frame.head, dump⟩ d rfl
  · refine fun h => .inr ⟨rfl, fun head c' hhead => ?_⟩
    cases hhead
    exact h

/-- An iteration that receives in full dispatches the next frame, or nothing. -/
theorem run_inOrder {frames : List Frame} {c' : Client S} {statuses : Status × Status}
    (h : InOrder frames c.dispatched c.unread) (full : InFull c statuses)
    (hrun : run handle c statuses.1 statuses.2 = .ok c') :
    InOrder frames c'.dispatched c'.unread := by
  obtain ⟨head, body⟩ := statuses
  obtain hhead | hhead : head = .notReady ∨ head = .done Head.size := full.imp_right And.left
  · subst hhead
    cases hrun
    exact h
  · subst hhead
    obtain ⟨done, rest, hframes, hdone, hunread⟩ := h
    obtain ⟨⟨data, unread⟩, hreceive, -⟩ := except_bind_eq_ok hrun
    obtain ⟨hlength, -⟩ := receiveBytes_sizes hreceive
    cases rest with
    | nil =>
      rw [hunread] at hlength
      cases hlength
    | cons frame rest =>
      rw [List.flatMap_cons] at hunread
      obtain ⟨hbody, rfl⟩ := (inFull_frame hunread body).mp full
      obtain ⟨dump, hframe⟩ := run_frame handle hunread hbody
      rw [hframe] at hrun
      cases hhandle : handle c.player (.start frame.body) ⟨frame.head, dump⟩ with
      | error fault =>
        rw [hhandle] at hrun
        cases hrun
      | ok player =>
        rw [hhandle] at hrun
        cases hrun
        exact ⟨done ++ [frame], rest, by simp [hframes], by simp [hdone], rfl⟩

/-- In every run whose iterations all receive in full or not at all, the packets that were
dispatched are the first frames of the server, with their bodies and in order. -/
theorem receiving_isPrefix (handle : S → Buffer → Packet Head → Except Fault S)
    (frames : List Frame) (statuses : List (Status × Status)) (c : Client S)
    (run : ((receiving handle frames).restrict InFull).Run statuses c) :
    c.dispatched <+: frames.map Frame.packet := by
  have inOrder : InOrder frames c.dispatched c.unread := by
    refine run.invariant (I := fun _ c => InOrder frames c.dispatched c.unread) ?_ ?_
    · rintro c ⟨hunread, hdispatched⟩
      rw [hunread, hdispatched]
      exact InOrder.start frames
    · intro _ c statuses c' _ h step
      obtain ⟨full, hrun⟩ := step
      exact run_inOrder h full hrun
  exact inOrder.isPrefix

def moveFrame (byte : UInt8) : Frame :=
  ⟨-1, 0x10000006, -1, [byte, byte, byte, byte], by simp⟩

def moveClient : Client (Player UInt32) :=
  ⟨[moveFrame 1, moveFrame 2].flatMap Frame.bytes, [],
    Player.create ⟨⟨0, 0, 0⟩, ⟨0, 0, 0, 0⟩⟩ 1⟩

abbrev movesReceived : System (Client (Player UInt32)) (Status × Status) :=
  receiving dispatch [moveFrame 1, moveFrame 2]

theorem moveFrame_dispatched :
    ∃ c, movesReceived.step moveClient (.done 16, .done 4) c ∧
      c.dispatched <+: [moveFrame 1, moveFrame 2].map Frame.packet := by
  have start : (movesReceived.restrict InFull).Run [] moveClient := .nil ⟨rfl, rfl⟩
  have hunread : moveClient.unread = (moveFrame 1).bytes ++ (moveFrame 2).bytes := rfl
  have full : InFull moveClient (.done 16, .done 4) :=
    (inFull_frame hunread _).mpr ⟨by decide, rfl⟩
  obtain ⟨c, step⟩ : ∃ c, movesReceived.step moveClient (.done 16, .done 4) c := ⟨_, rfl⟩
  have run := start.snoc ⟨full, step⟩
  exact ⟨c, step, receiving_isPrefix dispatch _ _ c run⟩

/-- With its header received before its body, the first frame is lost, and the second one is
dispatched. -/
theorem moveFrame_lost :
    ∃ c, movesReceived.Run
        [(.done 16, .notReady), (.done 4, .notReady), (.done 16, .done 4)] c ∧
      c.dispatched = [(moveFrame 2).packet] ∧
      ¬c.dispatched <+: [moveFrame 1, moveFrame 2].map Frame.packet := by
  have start : movesReceived.Run [] moveClient := .nil ⟨rfl, rfl⟩
  have first : movesReceived.step moveClient (.done 16, .notReady)
    { moveClient with unread := moveClient.unread.drop 16 } := rfl
  have second : movesReceived.step { moveClient with unread := moveClient.unread.drop 16 }
    (.done 4, .notReady) { moveClient with unread := moveClient.unread.drop 20 } := rfl
  obtain ⟨c, third, hc⟩ : ∃ c, movesReceived.step
      { moveClient with unread := moveClient.unread.drop 20 } (.done 16, .done 4) c ∧
      c.dispatched = [(moveFrame 2).packet] := ⟨_, rfl, rfl⟩
  refine ⟨c, ((start.snoc first).snoc second).snoc third, hc, ?_⟩
  rw [hc]
  decide

end Starfall.NativeClient
