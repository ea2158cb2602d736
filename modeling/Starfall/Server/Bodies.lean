import Starfall.Common.Bounds
import Starfall.Server.Receive

/-! What the handlers look at.  Each of them decodes its body from the first byte on.  The decoders
stay inside the body exactly when the counts and lengths that it claims fit in it, or run short by
an amount that the test for the end happens to notice. -/

namespace Starfall.Receive

open Buffer ProofKit.Reading

/-- `n` messages stand at the front of the bytes, as far as `ConsoleData` goes on to read them. -/
def ConsoleStays (print : Str → Printed) : Nat → List UInt8 → Prop
  | 0, _ => True
  | n + 1, rest =>
    StringStays rest ∧ ∀ text, print (stringAt rest) = .printed text →
      ConsoleStays print n (rest.drop (stringStep rest))

theorem idle_messages (print : Str → Printed) (n : Nat) : Idle (consoleMessages print n) := by
  induction n with
  | zero => exact fun c _ => ⟨_, rfl⟩
  | succ n ih =>
    apply idle_string.bind
    intro data
    cases print data with
    | printed text => exact ih.bind fun _ c _ => ⟨_, rfl⟩
    | consoleException => exact fun c _ => ⟨_, rfl⟩
    | threw => exact fun c _ => ⟨_, rfl⟩

theorem inside_messages_iff (print : Str → Printed) (n : Nat) {c : Buffer}
    (hc : c.it ≤ c.data.length) (hint : c.data.length < 2 ^ 31) :
    Inside (consoleMessages print n) c ↔ ConsoleStays print n c.rest := by
  have stop : ∀ {c : Buffer} (x : Outcome × List ConsoleEntry), c.it ≤ c.data.length →
      Inside (pure x) c := fun {c} x hc => (inside_of_ok (n := 0) (pure_apply x c)).mpr hc
  induction n generalizing c with
  | zero => exact iff_of_true (stop _ hc) trivial
  | succ n ih =>
    have hlen := c.length_rest
    have hstep : stringStep c.rest ≤ c.rest.length := stringStep_le
    have hnext : (c.advance (stringStep c.rest)).it ≤ c.data.length := by simp; omega
    rw [consoleMessages, inside_string_bind (by omega), ConsoleStays]
    apply and_congr_right
    intro _
    cases hprint : print (stringAt c.rest) with
    | printed text =>
      have hrest : Inside (consoleMessages print n) (c.advance (stringStep c.rest)) ↔ _ :=
        ih hnext hint
      dsimp only
      rw [inside_bind_pure, hrest, Cursor.rest_advance]
      constructor
      · intro h _ _
        exact h
      · intro h
        exact h text rfl
    | consoleException => exact iff_of_true (stop _ hnext) nofun
    | threw => exact iff_of_true (stop _ hnext) nofun

theorem inside_console_iff (print : Str → Printed) (body : Body) :
    Inside (readConsole print) (.start body.bytes) ↔ body.bytes.length = 3 ∨
      4 ≤ body.bytes.length ∧ ConsoleStays print (wordAt body.bytes) (body.bytes.drop 4) := by
  have hfits := body.fits
  have loop : ∀ size : UInt32, 4 * 1 ≤ (Cursor.start body.bytes).rest.length →
      readUInt32 (.start body.bytes) = .ok (size, (Cursor.start body.bytes).advance (4 * 1)) →
      (Inside (consoleMessages print size.toNat) ((Cursor.start body.bytes).advance (4 * 1)) ↔
        ConsoleStays print (wordAt body.bytes) (body.bytes.drop 4)) := by
    intro size hfull hsize
    obtain ⟨v, hv, hword⟩ := readUInt32_full hfull
    rw [hsize] at hv
    cases hv
    rw [inside_messages_iff print _ hfull hfits, hword]
    rfl
  rw [readConsole,
    Words.uint32.inside_bind_iff (fun size => idle_messages print size.toNat) loop,
    Cursor.rest_start]
  by_cases h : ConsoleStays print (wordAt body.bytes) (body.bytes.drop 4)
  · simp only [h, and_true]
    omega
  · simp only [h, and_false, or_false]
    omega

/-- The decoder of each handler stays inside the body exactly when the body meets a condition on its
length and on the counts and lengths that it claims. -/
theorem bodies_inside_iff {F : Type} [FloatBits F] (print : Str → Printed) (body : Body) :
    (Inside readLoginStruct (.start body.bytes) ↔ LoginStays body.bytes) ∧
    (Inside (readConsole print) (.start body.bytes) ↔ body.bytes.length = 3 ∨
      4 ≤ body.bytes.length ∧ ConsoleStays print (wordAt body.bytes) (body.bytes.drop 4)) ∧
    (Inside (readTransformsPacket (F := F)) (.start body.bytes) ↔
      body.bytes.length % 4 = 3 ∨ 4 + 32 * wordAt body.bytes ≤ body.bytes.length) ∧
    (Inside (readObjectsStruct (F := F)) (.start body.bytes) ↔
      body.bytes.length % 4 = 3 ∨ 12 + 4 * wordAt (body.bytes.drop 8) ≤ body.bytes.length) :=
  ⟨inside_login_iff body, inside_console_iff print body, inside_transforms_iff body,
    inside_objects_iff body.bytes⟩

def oneByte : Body := ⟨[0], by decide⟩

theorem oneByte_not_inside :
    ¬Inside readLoginStruct (.start oneByte.bytes) ∧
    ¬Inside (readConsole .printed) (.start oneByte.bytes) ∧
    ¬Inside (readTransformsPacket (F := UInt32)) (.start oneByte.bytes) ∧
    ¬Inside (readObjectsStruct (F := UInt32)) (.start oneByte.bytes) := by
  refine ⟨?_, ?_, ?_, ?_⟩ <;> exact fun h => h.1 1 rfl

end Starfall.Receive
