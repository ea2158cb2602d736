import Starfall.Server.Mutexes

/-! What throws in the receive functions, and so when `onSocketReadable` leaves the mutex of its
player locked. -/

namespace Starfall.Mutexes

open Buffer Receive ProofKit.Depths
open ProofKit.Reading (except_bind_eq_ok forall_ok_iff)

variable {F : Type}

/-- Each of the ids finds an entity, from the `n`th access of the map on. -/
def Found (env : Environment F) : Nat → List UInt32 → Prop
  | _, [] => True
  | n, sessionid :: sessionids =>
    (∃ e, (env.maps n).lookup sessionid = some (some e)) ∧ Found env (n + 1) sessionids

/-- The ids that `ObjectsData` looks up for the entity `key`. -/
def keyLookups (keys ids : List UInt32) (key : UInt32) : List UInt32 :=
  ids.filter (fun it => it = key) ++ if ids.all fun it => it ∈ keys ∧ it ≠ key then [key] else []

def lookups (keys ids : List UInt32) : List UInt32 := keys.flatMap (keyLookups keys ids)

/-- No message throws, up to the end or to the first that ends with a `ConsoleException`. -/
def Printable (env : Environment F) : Nat → Nat → Buffer → Prop
  | _, 0, _ => True
  | i, n + 1, buffer => ∀ data rest, readString buffer = .ok (data, rest) →
    env.print i data ≠ .threw ∧
      ∀ text, env.print i data = .printed text → Printable env (i + 1) n rest

/-- Nothing throws in a receive function that finds the player `p` after the given number of
accesses of the map. -/
def Returns [FloatBits F] (env : Environment F) (p : Player F) (accesses : Nat) (head : Packet Head)
    (buffer : Buffer) : ReceiveFunction → Prop
  | .LoginData => ∀ packet rest, readLoginStruct buffer = .ok (packet, rest) →
    env.insert (.head head) ∧ env.insert (.login packet) ∧
      (p.userid = packet.value.userid → env.select packet.value)
  | .ConsoleData => ∀ nMessages rest, readUInt32 buffer = .ok (nMessages, rest) →
    Printable env 0 nMessages.toNat rest
  | .TransformData => True
  | .ObjectsData => ∀ (packet : ObjectsStruct F) rest,
    readObjectsStruct buffer = .ok (packet, rest) →
    Found env (accesses + 1) (lookups (env.maps accesses).keys packet.ids)

theorem found_append {env : Environment F} {n : Nat} {xs ys : List UInt32} :
    Found env n (xs ++ ys) ↔ Found env n xs ∧ Found env (n + xs.length) ys := by
  induction xs generalizing n with
  | nil => simp [Found]
  | cons x xs ih =>
    rw [List.cons_append, Found, Found, ih, List.length_cons, Nat.add_assoc n, Nat.add_comm 1]
    exact and_assoc.symm

/-- The computation looks up the ids and then returns `a`, or throws when one of them is missing. -/
def Performs {A : Type} (env : Environment F) (x : Run F A) (sessionids : List UInt32) (a : A) :
    Prop :=
  ∀ s r s', Ends x s r s' →
    (Found env s.world.accesses sessionids ∧ r = .ok a ∧
      s'.world.accesses = s.world.accesses + sessionids.length) ∨
    (¬Found env s.world.accesses sessionids ∧ ∃ e, r = .error e)

namespace Performs

variable {A B : Type} {env : Environment F}

theorem pure (a : A) : Performs env (pure a : Run F A) [] a := by
  intro s r s' h
  obtain ⟨rfl, rfl⟩ := ends_pure.mp h
  exact .inl ⟨trivial, rfl, rfl⟩

theorem modifyPlayer (f : Player F → Player F) : Performs env (modifyPlayer f) [] () := by
  intro s r s' h
  obtain ⟨rfl, rfl⟩ := ends_modifyWorld.mp h
  exact .inl ⟨trivial, rfl, rfl⟩

theorem bind {x : Run F A} {f : A → Run F B} {xs ys : List UInt32} {a : A} {b : B}
    (hx : Performs env x xs a) (hf : Performs env (f a) ys b) :
    Performs env (x >>= f) (xs ++ ys) b := by
  intro s r s' h
  rw [found_append]
  rcases ends_bind.mp h with ⟨e, rfl, hthrew⟩ | ⟨a', mid, hreturned, hrest⟩
  · rcases hx _ _ _ hthrew with ⟨-, hok, -⟩ | ⟨missing, -⟩
    · cases hok
    · exact .inr ⟨fun found => missing found.1, e, rfl⟩
  · rcases hx _ _ _ hreturned with ⟨found, hok, haccesses⟩ | ⟨-, e, herror⟩
    · cases hok
      rcases hf _ _ _ hrest with ⟨found', rfl, haccesses'⟩ | ⟨missing, e, rfl⟩
      · refine .inl ⟨⟨found, haccesses ▸ found'⟩, rfl, ?_⟩
        rw [haccesses', haccesses, List.length_append, Nat.add_assoc]
      · exact .inr ⟨fun found => missing (haccesses ▸ found.2), e, rfl⟩
    · cases herror

theorem forM {f : A → Run F Unit} {sessionids : A → List UInt32}
    (hf : ∀ a, Performs env (f a) (sessionids a) ()) (l : List A) :
    Performs env (l.forM f) (l.flatMap sessionids) () := by
  induction l with
  | nil => exact pure ()
  | cons a l ih => exact bind (hf a) ih

end Performs

theorem subscript_eq_some {map : HashMap (Option (Entity F))} {sessionid : UInt32} {e : Entity F} :
    (map.subscript sessionid).1 = some e ↔ map.lookup sessionid = some (some e) := by
  rw [HashMap.subscript]
  cases map.lookup sessionid with
  | none => exact iff_of_false nofun nofun
  | some v => exact Option.some_inj.symm

/-- A lookup finds an entity, or throws. -/
theorem find_run {A : Type} (env : Environment F) (cast : Entity F → A) (sessionid : UInt32)
    (s : Machine Mutex (World F)) :
    ∃ r s', Ends (env.find cast sessionid) s r s' ∧
      ((∃ e, (env.maps s.world.accesses).lookup sessionid = some (some e) ∧ r = .ok (cast e) ∧
        s'.world = { s.world with accesses := s.world.accesses + 1 }) ∨
      (¬∃ e, (env.maps s.world.accesses).lookup sessionid = some (some e)) ∧
        r = .error .nullPointer) := by
  simp only [Environment.find, Environment.map, ends_lock_bind, bind_assoc, ends_world_bind,
    ends_modifyWorld_bind, pure_bind, ends_unlock_bind, locked_world, ← subscript_eq_some]
  cases hfound : ((env.maps s.world.accesses).subscript sessionid).1 with
  | none =>
    refine ⟨_, _, rfl, .inr ⟨?_, rfl⟩⟩
    rintro ⟨e, ⟨⟩, -⟩
  | some e => exact ⟨_, _, rfl, .inl ⟨e, rfl, rfl, rfl⟩⟩

theorem find_ends {A : Type} {env : Environment F} {cast : Entity F → A} {sessionid : UInt32}
    {s s' : Machine Mutex (World F)} {r : Except Exception A}
    (h : Ends (env.find cast sessionid) s r s') :
    (∃ e, (env.maps s.world.accesses).lookup sessionid = some (some e) ∧ r = .ok (cast e) ∧
      s'.world = { s.world with accesses := s.world.accesses + 1 }) ∨
    (¬∃ e, (env.maps s.world.accesses).lookup sessionid = some (some e)) ∧
      r = .error .nullPointer := by
  obtain ⟨r', s'', hrun, hcases⟩ := find_run env cast sessionid s
  obtain ⟨⟩ := (show Except.ok (r, s') = .ok (r', s'') from h.symm.trans hrun)
  exact hcases

theorem tryFind_performs {A : Type} (env : Environment F) (cast : Entity F → A)
    (push : A → Player F → Player F) (sessionid : UInt32) :
    Performs env (tryFind env cast push sessionid) [sessionid] () := by
  intro s r s' h
  rw [Found, Found, and_true]
  rcases ends_tryCatch.mp h with ⟨_, rfl, hreturned⟩ | ⟨e, mid, hthrew, hcatch⟩
  · rcases ends_bind.mp hreturned with ⟨e, ⟨⟩, -⟩ | ⟨t, mid, hfind, hpush⟩
    rcases find_ends hfind with ⟨e, hlookup, -, hworld⟩ | ⟨-, ⟨⟩⟩
    obtain ⟨-, rfl⟩ := ends_modifyWorld.mp hpush
    exact .inl ⟨⟨e, hlookup⟩, rfl, congrArg World.accesses hworld⟩
  · rcases ends_bind.mp hthrew with ⟨e', he, hfind⟩ | ⟨t, mid', -, hpush⟩
    · cases he
      rcases find_ends hfind with ⟨_, -, ⟨⟩, -⟩ | ⟨missing, ⟨⟩⟩
      exact .inr ⟨missing, _, (ends_throw.mp hcatch).1⟩
    · cases (ends_modifyWorld.mp hpush).1

/-- The state of the entity `key` after the id `it`. -/
def nextState (keys : List UInt32) (key entityState it : UInt32) : UInt32 :=
  if it = key then 2 else if it ∈ keys then entityState else 1

theorem checkId_performs (env : Environment F) (keys : List UInt32) (key entityState it : UInt32) :
    Performs env (checkId env keys key entityState it) (if it = key then [it] else [])
      (nextState keys key entityState it) := by
  have compare : ∀ entityState : UInt32, Performs env (if it = key then (do
      transformEntity env it
      pure 2) else pure entityState : Run F UInt32) (if it = key then [it] else [])
        (if it = key then 2 else entityState) := by
    intro entityState
    split
    · exact (tryFind_performs env _ _ it).bind (.pure 2)
    · exact .pure entityState
  unfold checkId nextState
  dsimp only
  split
  · exact Performs.bind (.pure entityState) (compare entityState)
  · exact Performs.bind (.modifyPlayer _) (Performs.bind (.pure 1) (compare 1))

theorem checkIds_performs (env : Environment F) (keys : List UInt32) (key entityState : UInt32)
    (ids : List UInt32) :
    Performs env (ids.foldlM (checkId env keys key) entityState)
      (ids.filter fun it => it = key) (ids.foldl (nextState keys key) entityState) := by
  induction ids generalizing entityState with
  | nil => exact .pure entityState
  | cons it ids ih =>
    rw [List.foldlM_cons, List.foldl_cons]
    have performs := Performs.bind (f := fun next => ids.foldlM (checkId env keys key) next)
      (checkId_performs env keys key entityState it) (ih _)
    by_cases h : it = key
    · rw [List.filter_cons_of_pos (by simpa using h)]
      rw [if_pos h] at performs
      exact performs
    · rw [List.filter_cons_of_neg (by simpa using h)]
      rw [if_neg h] at performs
      exact performs

theorem foldl_nextState {keys ids : List UInt32} {key entityState : UInt32} :
    ids.foldl (nextState keys key) entityState = 0 ↔
      entityState = 0 ∧ ∀ it ∈ ids, it ∈ keys ∧ it ≠ key := by
  induction ids generalizing entityState with
  | nil => simp
  | cons it ids ih =>
    rw [List.foldl_cons, ih, List.forall_mem_cons, nextState]
    by_cases h : it = key
    · simp [h]
    · by_cases hmem : it ∈ keys
      · simp [h, hmem]
      · simp [h, hmem]

section Rounds

variable [Add F] [Sub F] [Mul F] [LE F] [DecidableLE F]

theorem checkKey_performs (env : Environment F) (keys ids : List UInt32) (key : UInt32) :
    Performs env (checkKey env keys ids key) (keyLookups keys ids key) () := by
  refine (checkIds_performs env keys key 0 ids).bind ?_
  have hall : (ids.all fun it => it ∈ keys ∧ it ≠ key) = true ↔
      ∀ it ∈ ids, it ∈ keys ∧ it ≠ key := by
    simp only [List.all_eq_true, decide_eq_true_eq]
  by_cases h : ∀ it ∈ ids, it ∈ keys ∧ it ≠ key
  · rw [if_pos (foldl_nextState.mpr ⟨rfl, h⟩), if_pos (hall.mpr h)]
    exact tryFind_performs env _ _ key
  · rw [if_neg fun hstate => h (foldl_nextState.mp hstate).2, if_neg fun hids => h (hall.mp hids)]
    exact .pure ()

variable [FloatBits F]

theorem objectsData_returns {env : Environment F} {buffer : Buffer} {head : Packet Head}
    {s s' : Machine Mutex (World F)} {r : Except Exception Bool}
    (h : Ends (objectsData env buffer head) s r s') :
    (∃ ok, r = .ok ok) ↔
      Returns env s.world.session.player s.world.accesses head buffer .ObjectsData := by
  obtain ⟨⟨packet, rest⟩, hread, hrounds⟩ := ends_fetch_bind h
  have iff : Returns env s.world.session.player s.world.accesses head buffer .ObjectsData ↔
      Found env (s.world.accesses + 1)
        (lookups (env.maps s.world.accesses).keys packet.ids) :=
    forall_ok_iff hread
  rw [iff]
  rcases ends_bind.mp (ends_modifyWorld_bind.mp hrounds) with
    ⟨e, -, hkeys⟩ | ⟨keys, mid, hkeys, hloops⟩
  · cases (keys_ends hkeys).1
  obtain ⟨⟨⟩, hworld⟩ := keys_ends hkeys
  have haccesses : mid.world.accesses = s.world.accesses + 1 := congrArg World.accesses hworld
  have performs := Performs.forM
    (checkKey_performs env (env.maps s.world.accesses).keys packet.ids)
    (env.maps s.world.accesses).keys
  rw [← haccesses]
  rcases ends_bind.mp hloops with ⟨e, rfl, hthrew⟩ | ⟨_, mid', hreturned, hsend⟩
  · rcases performs _ _ _ hthrew with ⟨-, ⟨⟩, -⟩ | ⟨missing, -⟩
    exact iff_of_false nofun missing
  · rcases performs _ _ _ hreturned with ⟨found, -, -⟩ | ⟨-, _, ⟨⟩⟩
    refine iff_of_true ?_ found
    refine NeverThrows.bind player_neverThrows
      (fun p => .bind (modifyPlayer_neverThrows _) fun _ => ?_) mid' r s' hsend
    split
    · exact .bind (modifyPlayer_neverThrows _) fun _ => .pure _
    · exact .pure _

omit [FloatBits F] [Add F] [Sub F] [Mul F] [LE F] [DecidableLE F] in
theorem insert_bind {env : Environment F} {entry : ConsoleEntry} {f : Unit → Run F Bool}
    {s s' : Machine Mutex (World F)} {r : Except Exception Bool}
    (h : Ends (insert env entry >>= f) s r s') :
    (¬env.insert entry ∧ ∃ e, r = .error e) ∨
    env.insert entry ∧ ∃ mid, mid.world.session.player = s.world.session.player ∧
      Ends (f ()) mid r s' := by
  by_cases hinsert : env.insert entry
  · rw [insert, if_pos hinsert] at h
    refine .inr ⟨hinsert, _, ?_, ends_modifyWorld_bind.mp h⟩
    rfl
  · rw [insert, if_neg hinsert] at h
    rcases ends_bind.mp h with ⟨e, hr, -⟩ | ⟨_, mid, hthrow, -⟩
    · exact .inl ⟨hinsert, e, hr⟩
    · cases (ends_throw.mp hthrow).1

omit [Add F] [Sub F] [Mul F] [LE F] [DecidableLE F] in
theorem loginData_returns {env : Environment F} {buffer : Buffer} {head : Packet Head}
    {s s' : Machine Mutex (World F)} {r : Except Exception Bool}
    (h : Ends (loginData env buffer head) s r s') :
    (∃ ok, r = .ok ok) ↔
      Returns env s.world.session.player s.world.accesses head buffer .LoginData := by
  obtain ⟨⟨packet, rest⟩, hread, h⟩ := ends_fetch_bind h
  have iff : Returns env s.world.session.player s.world.accesses head buffer .LoginData ↔
      env.insert (.head head) ∧ env.insert (.login packet) ∧
        (s.world.session.player.userid = packet.value.userid → env.select packet.value) :=
    forall_ok_iff hread
  rw [iff]
  dsimp only at h
  rcases insert_bind h with ⟨refused, e, rfl⟩ | ⟨hhead, mid, hplayer, h⟩
  · exact iff_of_false nofun fun h => refused h.1
  rcases insert_bind h with ⟨refused, e, rfl⟩ | ⟨hlogin, mid', hplayer', h⟩
  · exact iff_of_false nofun fun h => refused h.2.1
  rw [← hplayer, ← hplayer']
  replace h : Ends (if mid'.world.session.player.userid ≠ packet.value.userid then _ else _)
    mid' r s' := h
  split at h
  · rename_i hne
    exact iff_of_true ⟨false, (ends_pure.mp h).1⟩ ⟨hhead, hlogin, fun heq => absurd heq hne⟩
  · rename_i heq
    replace h := ends_modifyWorld_bind.mp h
    by_cases hselect : env.select packet.value
    · rw [select, if_pos hselect] at h
      refine iff_of_true ?_ ⟨hhead, hlogin, fun _ => hselect⟩
      exact NeverThrows.bind (.pure ()) (fun _ => .bind player_neverThrows fun p =>
        .bind (modifyPlayer_neverThrows _) fun _ => .pure _) _ r s' h
    · rw [select, if_neg hselect] at h
      rcases ends_bind.mp h with ⟨e, rfl, -⟩ | ⟨_, mid, hthrow, -⟩
      · exact iff_of_false nofun fun h => hselect (h.2.2 (not_not.mp heq))
      · cases (ends_throw.mp hthrow).1

omit [FloatBits F] [Add F] [Sub F] [Mul F] [LE F] [DecidableLE F] in
theorem consoleMessages_returns {env : Environment F} {n i : Nat} {buffer : Buffer}
    {s s' : Machine Mutex (World F)} {r : Except Exception Bool}
    (h : Ends (consoleMessages env i n buffer) s r s') :
    (∃ ok, r = .ok ok) ↔ Printable env i n buffer := by
  induction n generalizing i buffer s with
  | zero => exact iff_of_true ⟨true, (ends_pure.mp h).1⟩ trivial
  | succ n ih =>
    obtain ⟨⟨data, rest⟩, hread, h⟩ := ends_fetch_bind h
    have iff : Printable env i (n + 1) buffer ↔ env.print i data ≠ .threw ∧
        ∀ text, env.print i data = .printed text → Printable env (i + 1) n rest :=
      forall_ok_iff hread
    rw [iff]
    dsimp only at h
    cases hprint : env.print i data with
    | printed text =>
      rw [hprint] at h
      rw [ih (ends_modifyWorld_bind.mp h)]
      exact ⟨fun printable => ⟨nofun, fun _ _ => printable⟩, fun h => h.2 text rfl⟩
    | consoleException =>
      rw [hprint] at h
      exact iff_of_true ⟨false, (ends_pure.mp h).1⟩ ⟨nofun, nofun⟩
    | threw =>
      rw [hprint] at h
      obtain ⟨rfl, -⟩ := ends_throw.mp h
      exact iff_of_false nofun fun h => h.1 rfl

omit [Add F] [Sub F] [Mul F] [LE F] [DecidableLE F] in
theorem transformData_neverThrows (buffer : Buffer) (head : Packet Head) :
    NeverThrows (transformData (F := F) buffer head) := by
  refine .bind (.fetch _) ?_
  rintro ⟨packet, rest⟩
  dsimp only
  have rest : NeverThrows (do
      clearPath
      packet.value.forM addToPath
      pure true : Run F Bool) :=
    .bind clearPath_neverThrows fun _ => .bind (.forM addToPath_neverThrows _) fun _ => .pure _
  split
  · exact .bind (modifyPlayer_neverThrows _) fun _ => rest
  · exact rest

/-- A receive function returns exactly when nothing throws in it. -/
theorem call_returns {env : Environment F} {f : ReceiveFunction} {buffer : Buffer}
    {head : Packet Head} {s s' : Machine Mutex (World F)} {r : Except Exception Bool}
    (h : Ends (call env f buffer head) s r s') :
    (∃ ok, r = .ok ok) ↔
      Returns env s.world.session.player s.world.accesses head buffer f := by
  cases f with
  | LoginData => exact loginData_returns h
  | ConsoleData =>
    obtain ⟨⟨nMessages, rest⟩, hread, h⟩ := ends_fetch_bind h
    have iff : Returns env s.world.session.player s.world.accesses head buffer .ConsoleData ↔
        Printable env 0 nMessages.toNat rest := forall_ok_iff hread
    rw [iff, consoleMessages_returns h]
  | TransformData => exact iff_of_true (transformData_neverThrows buffer head _ _ _ h) trivial
  | ObjectsData => exact objectsData_returns h

omit [FloatBits F] [Add F] [Sub F] [Mul F] [LE F] [DecidableLE F] in
theorem sendPackets_restores (env : Environment F) : Restores (sendPackets env) := by
  refine .bind player_restores fun p => .forM (fun out => ?_) _
  unfold sendPacket
  split
  · exact .modifyWorld _
  · exact .throw _

/-- Nothing throws in the receive function of the packet, if it has one. -/
def HandlerReturns (env : Environment F) (w : World F) (buffer : Buffer) (head : Packet Head) :
    Prop :=
  ∀ f, Receive.map head.value.opcode.toUInt32 = some f →
    Returns env w.session.player w.accesses head buffer f

theorem receive_restored_iff {env : Environment F} {buffer : Buffer} {head : Packet Head}
    {s s' : Machine Mutex (World F)} {r : Except Exception Outcome}
    (h : Ends (receive env buffer head) s r s') :
    s'.depths = s.depths ↔ HandlerReturns env s.world buffer head := by
  unfold HandlerReturns
  unfold receive at h
  cases hmap : Receive.map head.value.opcode.toUInt32 with
  | none =>
    rw [hmap] at h
    rcases ends_bind.mp h with ⟨e, -, hthrow⟩ | ⟨f, mid, hthrow, -⟩
    · exact iff_of_true (Restores.throw _ _ _ _ hthrow) nofun
    · cases (ends_throw.mp hthrow).1
  | some f =>
    rw [hmap] at h
    replace h : Ends (do
        lock (.entity s.world.session.player.pEntity.sessionid)
        let ok ← call env f buffer head
        unlock (.entity s.world.session.player.pEntity.sessionid)
        sendPackets env
        pure (Outcome.returned ok) : Run F Outcome) s r s' := h
    obtain ⟨r', mid, hcall, hiff⟩ := restored_iff (call_restores env f buffer head)
      (fun ok => .bind (sendPackets_restores env) fun _ => .pure (Outcome.returned ok)) h
    rw [hiff, call_returns hcall]
    constructor
    · rintro returns _ ⟨⟩
      exact returns
    · exact fun returns => returns f rfl

theorem dispatch_restored_iff {env : Environment F} {buffer : Buffer} {head : Packet Head}
    {s s' : Machine Mutex (World F)} {r : Except Exception Outcome}
    (h : Ends (dispatch env buffer head) s r s') :
    s'.depths = s.depths ↔ HandlerReturns env s.world buffer head := by
  rcases ends_tryCatch.mp h with ⟨a, -, hreturned⟩ | ⟨e, mid, hthrew, hcatch⟩
  · exact receive_restored_iff hreturned
  · have hmid : s'.depths = mid.depths := by
      cases e with
      | outOfRange => exact Restores.pure _ _ _ _ hcatch
      | notFound => exact Restores.throw _ _ _ _ hcatch
      | nullPointer => exact Restores.throw _ _ _ _ hcatch
      | poco => exact Restores.throw _ _ _ _ hcatch
    rw [hmid]
    exact receive_restored_iff hthrew

theorem handle_ends {env : Environment F} {s s' : Machine Mutex (World F)} {buffer : Buffer}
    {head : Packet Head} {outcome : Outcome} (h : handle env s buffer head = .ok (outcome, s')) :
    ∃ r, Ends (dispatch env buffer head) s r s' := by
  unfold handle at h
  split at h
  · cases h
  · rename_i outcome s' hrun
    cases h
    exact ⟨_, hrun⟩
  · rename_i e s' hrun
    cases h
    exact ⟨_, hrun⟩

/-- The bytes that the body of the packet has when the call receives `n2` of them. -/
def receivedBody (unread : List UInt8) (size n2 : Nat) : List UInt8 :=
  (unread.drop Head.size).take n2 ++ List.replicate (size - n2) 0

/-- When the call receives a header with a body, nothing throws in the receive function. -/
def PacketReturns (env : Environment F) (c : Connection (Machine Mutex (World F))) (n n2 : Nat) :
    Prop :=
  ∀ head rest, n = Head.size → readHead (.start (c.unread.take Head.size)) = .ok (head, rest) →
    0 < head.value.bodysize → HandlerReturns env c.session.world
      (.start (receivedBody c.unread head.value.bodysize.toNatClampNeg n2)) head

theorem onSocketReadable_restored_iff {env : Environment F}
    {c c' : Connection (Machine Mutex (World F))} {n n2 : Nat}
    (h : onSocketReadable (handle env) c n n2 = .ok c') :
    c'.session.depths = c.session.depths ↔ PacketReturns env c n n2 := by
  obtain ⟨⟨data, unread⟩, hreceive, h⟩ := except_bind_eq_ok h
  obtain ⟨-, rfl, rfl⟩ := receiveBytes_sizes hreceive
  dsimp only at h
  split at h
  · rename_i hn
    refine iff_of_true ?_ fun _ _ hsize => absurd hsize hn
    split at h
    · cases h
      rfl
    · cases h
      rfl
  · rename_i hn
    obtain rfl := not_not.mp hn
    obtain ⟨⟨head, rest⟩, hread, h⟩ := except_bind_eq_ok h
    replace hread := defined_eq_ok hread
    have iff : PacketReturns env c Head.size n2 ↔ (0 < head.value.bodysize →
        HandlerReturns env c.session.world
          (.start (receivedBody c.unread head.value.bodysize.toNatClampNeg n2)) head) := by
      constructor
      · exact fun returns => returns head rest rfl hread
      · intro returns head' rest' _ hread'
        cases hread.symm.trans hread'
        exact returns
    rw [iff]
    dsimp only at h
    split at h
    · rename_i hneg
      cases h
      exact iff_of_true rfl fun hpos => absurd hneg (Int32.lt_asymm hpos)
    · split at h
      · cases h
      · rename_i hnonneg hzero
        have hpos : 0 < head.value.bodysize := by
          rw [Int32.lt_iff_toInt_lt] at hnonneg ⊢
          rw [← Int32.toInt_inj] at hzero
          have zero : (0 : Int32).toInt = 0 := rfl
          omega
        obtain ⟨⟨received, unread⟩, hreceive, h⟩ := except_bind_eq_ok h
        obtain ⟨-, rfl, rfl⟩ := receiveBytes_sizes hreceive
        obtain ⟨⟨outcome, session⟩, hhandle, h⟩ := except_bind_eq_ok h
        cases h
        obtain ⟨r, hends⟩ := handle_ends (defined_eq_ok hhandle)
        rw [dispatch_restored_iff hends]
        exact ⟨fun returns _ => returns, fun returns => returns hpos⟩

end Rounds

end Starfall.Mutexes
