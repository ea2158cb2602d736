import Mathlib.Data.List.Infix
import Starfall.Common.Bounds
import Starfall.Common.RoundTrip

/-! Decoding only what could have been encoded.  When three bytes are left where a word is needed,
`readUInt32` returns 0 and goes on, and `readString` returns the empty string when it misses one
byte.  So the value of a body that runs short in this way is not the value of the bytes that were
taken. -/

namespace Starfall.Buffer

open ProofKit.Reading

section Covering

variable {α β : Type} {enc : α → List UInt8}

/-- Any `n` bytes are the encoding of a value. -/
def Covers (enc : α → List UInt8) (n : Nat) : Prop :=
  ∀ bytes : List UInt8, bytes.length = n → ∃ a, enc a = bytes

theorem covers_uint32 : Covers writeUInt32 4 := by
  intro bytes h
  match bytes, h with
  | [b0, b1, b2, b3], _ => exact ⟨word b0 b1 b2 b3, writeUInt32_word b0 b1 b2 b3⟩

theorem Covers.append {enc' : β → List UInt8} {m n : Nat} (h1 : Covers enc m)
    (h2 : Covers enc' n) : Covers (fun p : α × β => enc p.1 ++ enc' p.2) (m + n) := by
  intro bytes h
  obtain ⟨a, ha⟩ := h1 (bytes.take m) (by simp; omega)
  obtain ⟨b, hb⟩ := h2 (bytes.drop m) (by simp; omega)
  exact ⟨(a, b), by simp [ha, hb]⟩

theorem covers_list {k : Nat} (h : Covers enc k) (n : Nat) (bytes : List UInt8)
    (hlen : bytes.length = n * k) :
    ∃ list : List α, list.length = n ∧ list.flatMap enc = bytes := by
  induction n generalizing bytes with
  | zero =>
    have hnil : bytes = [] := List.eq_nil_of_length_eq_zero (by omega)
    exact ⟨[], rfl, hnil.symm⟩
  | succ n ih =>
    rw [Nat.succ_mul] at hlen
    obtain ⟨a, ha⟩ := h (bytes.take k) (by simp; omega)
    obtain ⟨list, hn, hlist⟩ := ih (bytes.drop k) (by simp; omega)
    refine ⟨a :: list, by simp [hn], ?_⟩
    rw [List.flatMap_cons, ha, hlist, List.take_append_drop]

theorem writeUInt32_wordAt {bytes : List UInt8} (h : 4 ≤ bytes.length) :
    writeUInt32 (.ofNat (wordAt bytes)) = bytes.take 4 := by
  match bytes, h with
  | b0 :: b1 :: b2 :: b3 :: suffix, _ =>
    rw [wordAt, UInt32.ofNat_toNat, writeUInt32_word]
    rfl

theorem wordAt_of_prefix {v : UInt32} {bytes : List UInt8} (h : writeUInt32 v <+: bytes) :
    wordAt bytes = v.toNat := by
  obtain ⟨suffix, rfl⟩ := h
  show (word _ _ _ _).toNat = v.toNat
  rw [word_bytes]

theorem vector_of_fits {k : Nat} (h : Covers enc k) (bytes : List UInt8)
    (hfits : 4 + k * wordAt bytes ≤ bytes.length) :
    ∃ list suffix, bytes = writeVector enc list ++ suffix ∧ list.length = wordAt bytes := by
  have hsize : (bytes.drop 4).length = bytes.length - 4 := by simp
  obtain ⟨list, hlen, hlist⟩ := covers_list h (wordAt bytes)
    ((bytes.drop 4).take (wordAt bytes * k)) (by rw [Nat.mul_comm]; simp; omega)
  refine ⟨list, (bytes.drop 4).drop (wordAt bytes * k), ?_, hlen⟩
  rw [writeVector, hlen, hlist, writeUInt32_wordAt (by omega), List.append_assoc,
    List.take_append_drop, List.take_append_drop]

end Covering

theorem writeString_of_fits {bytes : List UInt8} (h : StringFits bytes) :
    writeString (stringAt bytes) = bytes.take (stringStep bytes) := by
  obtain ⟨hfour, hall⟩ := h
  have hfits : StringFits bytes := ⟨hfour, hall⟩
  have hsize : ((bytes.drop 4).take (wordAt bytes)).length = wordAt bytes := by
    simp
    omega
  rw [stringAt, stringStep, if_pos hfits, if_pos hfits, writeString, hsize,
    writeUInt32_wordAt hfour, List.take_add]

/-- A string that is read short is not the encoding of what is read. -/
theorem stringFits_of_prefix {bytes : List UInt8} (hstays : StringStays bytes)
    (h : writeString (stringAt bytes) <+: bytes) : StringFits bytes := by
  by_contra hnot
  have hshort : StringShort bytes := hstays.resolve_left hnot
  rw [stringAt, if_neg hnot] at h
  have hword : wordAt bytes = 0 := wordAt_of_prefix (v := 0) h
  have hlen := h.length_le
  rw [StringShort, hword] at hshort
  simp at hlen
  omega

section Short

variable {α β : Type}

/-- With three bytes more than a number of words left, `r` finishes in the same situation. -/
def Completes (r : Read α) : Prop :=
  ∀ c : Buffer, c.rest.length % 4 = 3 →
    ∃ a n, r c = .ok (a, c.advance n) ∧ (c.advance n).rest.length % 4 = 3

theorem Words.completes {n : Nat} {r : Read α} (h : Words n r) : Completes r := by
  intro c hmod
  by_cases hfull : 4 * n ≤ c.rest.length
  · obtain ⟨a, ha⟩ := h.full hfull
    exact ⟨a, 4 * n, ha, by simp; omega⟩
  · obtain ⟨a, ha⟩ := h.short (Nat.lt_of_not_le hfull) hmod
    exact ⟨a, _, ha, by simp; omega⟩

theorem Words.cursor {n : Nat} {r : Read α} (h : Words n r) {c c' : Buffer} {a : α}
    (hfull : 4 * n ≤ c.rest.length) (hread : r c = .ok (a, c')) : c' = c.advance (4 * n) := by
  obtain ⟨b, hb⟩ := h.full hfull
  rw [hread] at hb
  cases hb
  rfl

theorem Completes.bind {r : Read α} {f : α → Read β} (h1 : Completes r)
    (h2 : ∀ a, Completes (f a)) : Completes (r >>= f) := by
  intro c hmod
  obtain ⟨a, m, ha, hm⟩ := h1 c hmod
  obtain ⟨b, n, hb, hn⟩ := h2 a (c.advance m) hm
  refine ⟨b, m + n, ?_, ?_⟩
  · rw [bind_of_ok ha, hb, Cursor.advance_advance]
  · rw [← Cursor.advance_advance]
    exact hn

/-- With fewer than `k` words left, but three bytes more than a number of words, `r` finishes. -/
def Finishes (k : Nat) (r : Read α) : Prop :=
  ∀ c : Buffer, c.rest.length < 4 * k → c.rest.length % 4 = 3 → ∃ a c', r c = .ok (a, c')

theorem Idle.finishes {r : Read α} (h : Idle r) : Finishes 1 r := by
  intro c hfew hmod
  obtain ⟨a, ha⟩ := h c (by omega)
  exact ⟨a, c, ha⟩

theorem Words.finishes_bind {n k : Nat} {r : Read α} {f : α → Read β} (h : Words n r)
    (idle : ∀ a, Idle (f a)) (hf : ∀ a, Finishes k (f a)) : Finishes (n + k) (r >>= f) := by
  intro c hfew hmod
  by_cases hfull : 4 * n ≤ c.rest.length
  · obtain ⟨a, ha⟩ := h.full hfull
    rw [bind_of_ok ha]
    exact hf a _ (by simp; omega) (by simp; omega)
  · obtain ⟨a, ha⟩ := h.short (Nat.lt_of_not_le hfull) hmod
    obtain ⟨b, hb⟩ := idle a (c.advance (c.rest.length - 3)) (by simp; omega)
    rw [bind_of_ok ha]
    exact ⟨b, _, hb⟩

theorem completes_vector {element : Read α} {m : Nat} (h : Words m element) :
    Completes (readVector element) :=
  Words.uint32.completes.bind fun size => (h.repeatRead size.toNat).completes

theorem readUInt32_wordAt {c c' : Buffer} {v : UInt32} (h : readUInt32 c = .ok (v, c')) :
    v.toNat = wordAt c.rest := by
  by_cases hfull : 4 ≤ c.rest.length
  · obtain ⟨w, hw, hword⟩ := readUInt32_full hfull
    rw [h] at hw
    cases hw
    exact hword
  rw [wordAt_few (Nat.lt_of_not_le hfull)]
  by_cases hthree : c.rest.length = 3
  · rw [readUInt32_three hthree] at h
    cases h
    rfl
  · obtain ⟨i, hi⟩ := readUInt32_few (c := c) (by omega)
    rw [hi] at h
    cases h

/-- A vector has as many elements as its count says, whether or not they were there. -/
theorem readVector_count {element : Read α} {c c' : Buffer} {list : List α}
    (h : readVector element c = .ok (list, c')) : list.length = wordAt c.rest := by
  obtain ⟨size, mid, hsize, hloop⟩ := bind_eq_ok h
  rw [repeatRead_length hloop, readUInt32_wordAt hsize]

end Short

section Canonical

variable {α β : Type} {read : Read α} {view : α → β} {enc : β → List UInt8} {rounds : β → Nat}

/-- When the decoding of `bytes` looks inside only, its value is encoded as the bytes that it took,
and it went through at most as many rounds of its loops as there are bytes. -/
def Canonical (read : Read α) (view : α → β) (enc : β → List UInt8) (rounds : β → Nat)
    (bytes : List UInt8) : Prop :=
  Inside read (.start bytes) → ∀ a c, read (.start bytes) = .ok (a, c) →
    enc (view a) = bytes.take c.it ∧ rounds (view a) ≤ bytes.length

theorem Canonical.isPrefix {bytes : List UInt8} (h : Canonical read view enc rounds bytes)
    (hinside : Inside read (.start bytes)) {a : α} {c : Buffer}
    (hread : read (.start bytes) = .ok (a, c)) : enc (view a) <+: bytes := by
  rw [(h hinside a c hread).1]
  exact List.take_prefix _ _

theorem Decodes.canonical {x : β} {suffix : List UInt8}
    (h : Decodes read view (enc x) suffix x) (rounds : β → Nat)
    (hrounds : rounds x ≤ (enc x).length) : Canonical read view enc rounds (enc x ++ suffix) := by
  intro _ a c hread
  obtain ⟨b, hb, rfl⟩ := h
  rw [hread] at hb
  cases hb
  refine ⟨by simp, ?_⟩
  rw [List.length_append]
  omega

end Canonical

theorem wordAt_lt (bytes : List UInt8) : wordAt bytes < 2 ^ 32 := by
  match bytes with
  | b0 :: b1 :: b2 :: b3 :: _ => exact (word b0 b1 b2 b3).toNat_lt
  | [] | [_] | [_, _] | [_, _, _] => exact Nat.two_pow_pos 32

/-- A vector of elements of `m` words that cover all bytes is canonical unless the bytes run short
by the right amount. -/
theorem vector_canonical_iff {α : Type} {element : Read α} {enc : α → List UInt8} {m : Nat}
    (hwords : Words m element) (hcovers : Covers enc (4 * m))
    (hwidth : ∀ a, (enc a).length = 4 * m) (hreads : ∀ a, Reads element (enc a) a) (hm : 0 < m)
    (bytes : List UInt8) :
    Canonical (readVector element) id (writeVector enc) List.length bytes ↔
      (bytes.length % 4 = 3 → 4 + 4 * m * wordAt bytes ≤ bytes.length) := by
  have hinside := inside_vector_iff hwords (c := .start bytes)
  rw [Cursor.rest_start, Nat.mul_comm (wordAt bytes), ← Nat.mul_assoc] at hinside
  constructor
  · intro h hmod
    obtain ⟨list, n, hread, -⟩ := completes_vector hwords (.start bytes) hmod
    have hlen := (h.isPrefix (hinside.mpr (.inl hmod)) hread).length_le
    rw [id, writeVector_length hwidth, readVector_count hread, Cursor.rest_start] at hlen
    rw [Nat.mul_comm (4 * m)]
    exact hlen
  · intro h hin
    have hfits : 4 + 4 * m * wordAt bytes ≤ bytes.length := (hinside.mp hin).elim h id
    obtain ⟨list, suffix, hbytes, hcount⟩ := vector_of_fits hcovers bytes hfits
    have hsize : list.length < 2 ^ 32 := hcount ▸ wordAt_lt bytes
    have hrounds : list.length ≤ (writeVector enc list).length :=
      (writeVector_bounds (fun a => by rw [hwidth a]; omega) list).1
    have decodes : Decodes (readVector element) id (writeVector enc list) suffix list :=
      Reads.decodes (reads_vector hsize fun a _ => hreads a) suffix
    rw [hbytes] at hin ⊢
    exact decodes.canonical List.length hrounds hin

/-- A word that is read where a number of words is left has the bytes that it was read from. -/
theorem readUInt32_aligned {c c' : Buffer} {v : UInt32} (aligned : c.rest.length % 4 = 0)
    (h : readUInt32 c = .ok (v, c')) :
    c.rest = writeUInt32 v ++ c'.rest ∧ c' = c.advance (4 * 1) := by
  have hfull : 4 * 1 ≤ c.rest.length := by
    by_contra hfew
    obtain ⟨i, hi⟩ := Words.uint32.fault (Nat.lt_of_not_le hfew) (by omega)
    rw [h] at hi
    cases hi
  cases Words.uint32.cursor hfull h
  have hv : .ofNat (wordAt c.rest) = v := by
    rw [← readUInt32_wordAt h, UInt32.ofNat_toNat]
  refine ⟨?_, rfl⟩
  rw [← hv, writeUInt32_wordAt hfull, Cursor.rest_advance, List.take_append_drop]

theorem readVector_aligned {α β : Type} {element : Read α} {enc : β → List UInt8} {view : β → α}
    {m : Nat} (hwords : Words m element) (hcovers : Covers enc (4 * m))
    (hreads : ∀ b, Reads element (enc b) (view b)) {c c' : Buffer} {list : List α}
    (aligned : c.rest.length % 4 = 0) (h : readVector element c = .ok (list, c')) :
    ∃ elems : List β, elems.length < 2 ^ 32 ∧ list = elems.map view ∧
      c.rest = writeVector enc elems ++ c'.rest := by
  obtain ⟨size, mid, hsize, hloop⟩ := bind_eq_ok h
  have hword := readUInt32_wordAt hsize
  obtain ⟨hbytes, rfl⟩ := readUInt32_aligned aligned hsize
  have hlen := congrArg List.length hbytes
  rw [List.length_append, writeUInt32_length] at hlen
  have hfits : 4 + 4 * m * wordAt c.rest ≤ c.rest.length := by
    by_contra hfew
    rw [← hword, Nat.mul_assoc, Nat.mul_comm m] at hfew
    obtain ⟨i, hi⟩ := (hwords.repeatRead size.toNat).fault (c := c.advance (4 * 1)) (by omega)
      (by omega)
    rw [hloop] at hi
    cases hi
  obtain ⟨elems, suffix, hrest, hcount⟩ := vector_of_fits hcovers c.rest hfits
  have hlt : elems.length < 2 ^ 32 := hcount ▸ wordAt_lt c.rest
  have hread := reads_vector_map hlt (fun b _ => hreads b) c suffix hrest
  rw [h] at hread
  cases hread
  refine ⟨elems, hlt, rfl, ?_⟩
  rw [Cursor.rest_advance, hrest, List.drop_left]

theorem ids_canonical_iff (bytes : List UInt8) :
    Canonical readIds id writeIds List.length bytes ↔
      (bytes.length % 4 = 3 → 4 + 4 * wordAt bytes ≤ bytes.length) :=
  vector_canonical_iff Words.uint32 covers_uint32 writeUInt32_length reads_uint32 Nat.one_pos bytes

section Floats

variable {F : Type} [FloatBits F] [LawfulFloatBits F]

theorem covers_float : Covers (writeFloat : F → List UInt8) 4 := by
  intro bytes h
  obtain ⟨v, hv⟩ := covers_uint32 bytes h
  refine ⟨FloatBits.ofBits v, ?_⟩
  rw [writeFloat, LawfulFloatBits.toBits_ofBits, hv]

theorem covers_transform : Covers (writeTransform : Transform F → List UInt8) 28 := by
  intro bytes h
  obtain ⟨⟨px, py, pz, ox, oy, oz, ow⟩, hbytes⟩ :=
    (covers_float (F := F)).append ((covers_float (F := F)).append ((covers_float (F := F)).append
      ((covers_float (F := F)).append ((covers_float (F := F)).append
        ((covers_float (F := F)).append (covers_float (F := F))))))) bytes h
  exact ⟨⟨⟨px, py, pz⟩, ⟨ox, oy, oz, ow⟩⟩, hbytes⟩

theorem covers_transformStruct :
    Covers (writeTransformStruct : TransformStruct F → List UInt8) (4 * 8) := by
  intro bytes h
  obtain ⟨⟨action, transform⟩, hbytes⟩ := covers_uint32.append (covers_transform (F := F)) bytes h
  exact ⟨{ transform with action }, hbytes⟩

theorem transforms_canonical_iff (bytes : List UInt8) :
    Canonical (readTransformStructs (F := F)) id writeTransformStructs List.length bytes ↔
      (bytes.length % 4 = 3 → 4 + 32 * wordAt bytes ≤ bytes.length) :=
  vector_canonical_iff words_transformStruct covers_transformStruct writeTransformStruct_length
    reads_transformStruct (by decide) bytes

theorem objects_canonical_iff (bytes : List UInt8) :
    Canonical (readObjectsStruct (F := F)) id writeObjectsStruct (fun o => o.ids.length) bytes ↔
      (bytes.length % 4 = 3 → 12 + 4 * wordAt (bytes.drop 8) ≤ bytes.length) := by
  have hinside := inside_objects_iff (F := F) bytes
  have width : ∀ o : ObjectsStruct F, (writeObjectsStruct o).length = 12 + o.ids.length * 4 := by
    intro o
    simp only [writeObjectsStruct, writeFloat, List.length_append, writeUInt32_length,
      writeIds_length]
    omega
  constructor
  · intro h hmod
    have completes : Completes (readObjectsStruct (F := F)) :=
      Words.uint32.completes.bind fun _ => words_float.completes.bind fun _ =>
        (completes_vector Words.uint32).bind fun _ => (Words.pure _).completes
    obtain ⟨objects, n, hread, -⟩ := completes (.start bytes) hmod
    have hlen := (h.isPrefix (hinside.mpr (.inl hmod)) hread).length_le
    rw [id, width] at hlen
    obtain ⟨state, c1, hstate, hread⟩ := bind_eq_ok hread
    obtain ⟨clip, c2, hclip, hread⟩ := bind_eq_ok hread
    obtain ⟨ids, c3, hids, hread⟩ := bind_eq_ok hread
    cases hread
    have h1 := Words.uint32.cursor (by simp; omega) hstate
    have h2 := words_float.cursor (by rw [h1]; simp; omega) hclip
    have hcount := readVector_count hids
    rw [h2, h1, Cursor.advance_advance, Cursor.rest_advance, Cursor.rest_start] at hcount
    dsimp only [Nat.reduceMul, Nat.reduceAdd] at hlen hcount
    omega
  · intro h hin
    have hfits : 12 + 4 * wordAt (bytes.drop 8) ≤ bytes.length := (hinside.mp hin).elim h id
    obtain ⟨⟨state, clip⟩, hhead⟩ := covers_uint32.append (covers_float (F := F)) (bytes.take 8)
      (by simp; omega)
    obtain ⟨ids, suffix, hids, hcount⟩ :=
      vector_of_fits covers_uint32 (bytes.drop 8) (by simp; omega)
    have hbytes : bytes = writeObjectsStruct (⟨state, clip, ids⟩ : ObjectsStruct F) ++ suffix := by
      dsimp only at hhead
      rw [writeObjectsStruct, writeIds, ← List.append_assoc, hhead, List.append_assoc, ← hids,
        List.take_append_drop]
    have decodes := (decodes_objectsStruct_iff ⟨state, clip, ids⟩ suffix).mpr
      (hcount ▸ wordAt_lt (bytes.drop 8))
    have hrounds :
        ids.length ≤ (writeObjectsStruct (⟨state, clip, ids⟩ : ObjectsStruct F)).length := by
      rw [width]
      dsimp only
      omega
    rw [hbytes] at hin ⊢
    exact decodes.canonical (fun o => o.ids.length) hrounds hin

end Floats

/-- The words and strings of a login are there. -/
def LoginFits (bytes : List UInt8) : Prop :=
  12 ≤ bytes.length ∧ StringFits (loginStrings bytes) ∧ StringFits (loginPassword bytes)

theorem writeLoginStruct_drop (login : LoginStruct) :
    (writeLoginStruct login).drop 12 = writeString login.username ++ writeString login.password :=
  rfl

theorem readLoginFields_stays {bytes : List UInt8} (hint : bytes.length < 2 ^ 31)
    (hwords : 12 ≤ bytes.length) (huser : StringStays (loginStrings bytes))
    (hpass : StringStays (loginPassword bytes)) :
    ∃ login c, readLoginFields (.start bytes) = .ok (login, c) ∧
      login.username = stringAt (loginStrings bytes) ∧
      login.password = stringAt (loginPassword bytes) := by
  obtain ⟨state, h1, -⟩ := readUInt32_full (c := .start bytes) (by simp; omega)
  obtain ⟨userid, h2, -⟩ := readUInt32_full (c := (Cursor.start bytes).advance 4)
    (by simp; omega)
  obtain ⟨usertype, h3, -⟩ := readUInt32_full
    (c := ((Cursor.start bytes).advance 4).advance 4) (by simp; omega)
  rw [Cursor.advance_advance] at h2 h3
  rw [Cursor.advance_advance] at h3
  have hstrings : ((Cursor.start bytes).advance 12).rest = loginStrings bytes :=
    Cursor.rest_advance _ 12
  have hpassword : (((Cursor.start bytes).advance 12).advance
      (stringStep (loginStrings bytes))).rest = loginPassword bytes := by
    rw [Cursor.rest_advance, hstrings]
    rfl
  have h4 := readString_stays (c := (Cursor.start bytes).advance 12) (hstrings ▸ huser)
    (by rw [hstrings, loginStrings]; simp; omega)
  rw [hstrings] at h4
  have h5 := readString_stays (c := ((Cursor.start bytes).advance 12).advance
    (stringStep (loginStrings bytes))) (hpassword ▸ hpass)
    (by rw [hpassword, loginPassword, loginStrings]; simp; omega)
  rw [hpassword] at h5
  refine ⟨⟨state, userid, usertype, stringAt (loginStrings bytes), stringAt (loginPassword bytes)⟩,
    (((Cursor.start bytes).advance 12).advance (stringStep (loginStrings bytes))).advance
      (stringStep (loginPassword bytes)), ?_, rfl, rfl⟩
  rw [readLoginFields, bind_of_ok h1, bind_of_ok h2, bind_of_ok h3, bind_of_ok h4, bind_of_ok h5,
    pure_apply]

theorem login_finishes {bytes : List UInt8} (hint : bytes.length < 2 ^ 31)
    (h : LoginStays bytes) : ∃ login c, readLoginFields (.start bytes) = .ok (login, c) := by
  rcases h with ⟨hfew, hmod⟩ | ⟨hwords, huser, hpass⟩
  · have idle : ∀ f : Str → Str → LoginStruct, Idle (do
        let username ← readString
        let password ← readString
        pure (f username password)) := fun f =>
      idle_string.bind fun _ => idle_string.bind fun _ => (Words.pure _).idle
    have finishes : Finishes (1 + (1 + (1 + 1))) readLoginFields :=
      Words.uint32.finishes_bind
        (fun _ => Words.uint32.idle.bind fun _ => Words.uint32.idle.bind fun _ => idle _) fun _ =>
      Words.uint32.finishes_bind (fun _ => Words.uint32.idle.bind fun _ => idle _) fun _ =>
      Words.uint32.finishes_bind (fun _ => idle _) fun _ => (idle _).finishes
    exact finishes (.start bytes) (by simp; omega) hmod
  · obtain ⟨login, c, hread, -⟩ := readLoginFields_stays hint hwords huser hpass
    exact ⟨login, c, hread⟩

theorem login_of_fits {bytes : List UInt8} (h : LoginFits bytes) :
    ∃ login suffix, bytes = writeLoginStruct login ++ suffix := by
  obtain ⟨hwords, huser, hpass⟩ := h
  obtain ⟨⟨state, userid, usertype⟩, hhead⟩ :=
    covers_uint32.append (covers_uint32.append covers_uint32) (bytes.take 12) (by simp; omega)
  refine ⟨⟨state, userid, usertype, stringAt (loginStrings bytes), stringAt (loginPassword bytes)⟩,
    (loginPassword bytes).drop (stringStep (loginPassword bytes)), ?_⟩
  dsimp only at hhead
  calc bytes
      = bytes.take 12 ++ loginStrings bytes := (List.take_append_drop 12 bytes).symm
    _ = bytes.take 12 ++ ((loginStrings bytes).take (stringStep (loginStrings bytes)) ++
          loginPassword bytes) := by rw [loginPassword, List.take_append_drop]
    _ = bytes.take 12 ++ ((loginStrings bytes).take (stringStep (loginStrings bytes)) ++
          ((loginPassword bytes).take (stringStep (loginPassword bytes)) ++
            (loginPassword bytes).drop (stringStep (loginPassword bytes)))) := by
      rw [List.take_append_drop]
    _ = _ := by
      rw [← hhead, writeLoginStruct, writeString_of_fits huser, writeString_of_fits hpass]
      simp only [List.append_assoc]

theorem loginFits_of_prefix {bytes : List UInt8} {login : LoginStruct} {c : Buffer}
    (hint : bytes.length < 2 ^ 31) (hstays : LoginStays bytes)
    (hread : readLoginFields (.start bytes) = .ok (login, c))
    (htaken : writeLoginStruct login <+: bytes) : LoginFits bytes := by
  have hlen := htaken.length_le
  rw [writeLoginStruct_length] at hlen
  rcases hstays with ⟨hfew, -⟩ | ⟨hwords, huser, hpass⟩
  · omega
  obtain ⟨login', c', hread', husername, hpassword⟩ :=
    readLoginFields_stays hint hwords huser hpass
  rw [hread] at hread'
  cases hread'
  have hstrings := htaken.drop 12
  rw [writeLoginStruct_drop, husername, hpassword] at hstrings
  have hfirst : StringFits (loginStrings bytes) :=
    stringFits_of_prefix huser ((List.prefix_append _ _).trans hstrings)
  refine ⟨hwords, hfirst, stringFits_of_prefix hpass ?_⟩
  have hsecond := hstrings.drop (writeString (stringAt (loginStrings bytes))).length
  rw [List.drop_left, writeString_of_fits hfirst, List.length_take_of_le stringStep_le] at hsecond
  exact hsecond

theorem login_canonical_iff (body : Body) :
    Canonical readLoginStruct Packet.value writeLoginStruct
        (fun login => login.username.length + login.password.length) body.bytes ↔
      (LoginStays body.bytes → LoginFits body.bytes) := by
  constructor
  · intro h hstays
    obtain ⟨login, c, hread⟩ := login_finishes body.fits hstays
    have hpacket : readLoginStruct (.start body.bytes) =
        .ok (⟨login, hexRows body.bytes.length 0 body.bytes⟩, c) := by
      rw [readLoginStruct, readPacket, bind_of_ok (hex_of_lt body.fits), bind_of_ok hread]
      rfl
    have htaken := h.isPrefix ((inside_login_iff body).mpr hstays) hpacket
    exact loginFits_of_prefix body.fits hstays hread htaken
  · intro h hin
    obtain ⟨login, suffix, hbytes⟩ := login_of_fits (h ((inside_login_iff body).mp hin))
    have hfits := body.fits
    rw [hbytes] at hin hfits ⊢
    have decodes := (decodes_loginStruct_iff login suffix).mpr hfits
    exact decodes.canonical (fun login => login.username.length + login.password.length)
      (by rw [writeLoginStruct_length]; omega) hin

/-- For each decoder, the value of what it takes is encoded as the bytes that it takes, exactly when
a body that the decoder does not look past has all the elements and strings that it claims. -/
theorem canonical_iff (body : Body) :
    (Canonical readLoginStruct Packet.value writeLoginStruct
        (fun login => login.username.length + login.password.length) body.bytes ↔
      (LoginStays body.bytes → LoginFits body.bytes)) ∧
    (Canonical (readTransformStructs (F := UInt32)) id writeTransformStructs List.length
        body.bytes ↔
      (body.bytes.length % 4 = 3 → 4 + 32 * wordAt body.bytes ≤ body.bytes.length)) ∧
    (Canonical readIds id writeIds List.length body.bytes ↔
      (body.bytes.length % 4 = 3 → 4 + 4 * wordAt body.bytes ≤ body.bytes.length)) ∧
    (Canonical (readObjectsStruct (F := UInt32)) id writeObjectsStruct (fun o => o.ids.length)
        body.bytes ↔
      (body.bytes.length % 4 = 3 → 12 + 4 * wordAt (body.bytes.drop 8) ≤ body.bytes.length)) :=
  ⟨login_canonical_iff body, transforms_canonical_iff body.bytes, ids_canonical_iff body.bytes,
    objects_canonical_iff body.bytes⟩

/-- A list of five ids of which none is there. -/
def noIds : Body := ⟨[0, 0, 0, 5, 0, 0, 0], by decide⟩

theorem noIds_not_canonical :
    Inside readIds (.start noIds.bytes) ∧
      (∃ c, readIds (.start noIds.bytes) = .ok ([0, 0, 0, 0, 0], c)) ∧
      ¬Canonical readIds id writeIds List.length noIds.bytes := by
  refine ⟨(inside_ids_iff noIds.bytes).mpr (by decide), ⟨_, rfl⟩, ?_⟩
  rw [ids_canonical_iff]
  decide

end Starfall.Buffer
