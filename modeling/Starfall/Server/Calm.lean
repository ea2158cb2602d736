import Starfall.Server.Throws

/-! The handlers with their locks do what the handlers of `Receive` say, as long as no call outside
of the connection fails and no other thread changes the entity map. -/

namespace Starfall

open Buffer Receive ProofKit.Depths ProofKit.Reading

variable {F : Type}

/-- The entities of the map, each under its own session id. -/
def EntityMap.hashMap (map : EntityMap F) : HashMap (Option (Entity F)) where
  entries := map.entities.map fun e => ⟨e.sessionid, some e⟩
  nodupKeys := by
    have keys : (map.entities.map fun e => (⟨e.sessionid, some e⟩ : Sigma fun _ : UInt32 =>
        Option (Entity F))).keys = map.keys := by
      rw [List.keys, List.map_map]
      rfl
    rw [List.NodupKeys, keys]
    exact map.nodup

theorem EntityMap.keys_hashMap (map : EntityMap F) : map.hashMap.keys = map.keys := by
  show List.keys (map.entities.map _) = _
  rw [List.keys, List.map_map]
  rfl

theorem EntityMap.lookup_hashMap {map : EntityMap F} {e : Entity F} (h : e ∈ map.entities) :
    map.hashMap.lookup e.sessionid = some (some e) :=
  AList.mem_lookup_iff.mpr (List.mem_map_of_mem h)

namespace Mutexes

/-- Nothing outside of the connection fails, and the map stays as it is. -/
def calm (server : Server F) : Environment F where
  login := server.login
  select _ := true
  insert _ := true
  send _ := true
  print _ := server.print
  maps _ := server.entities.hashMap

/-- The computation returns `a` and makes `p'` of the player `p`, and leaves the rest of the
session. -/
def Plays {A : Type} (x : Run F A) (p : Player F) (a : A) (p' : Player F) : Prop :=
  ∀ s, s.world.session.player = p → ∃ s', Ends x s (.ok a) s' ∧
    s'.world.session = { s.world.session with player := p' }

namespace Plays

variable {A B : Type}

theorem pure (a : A) (p : Player F) : Plays (pure a) p a p := by
  rintro s rfl
  exact ⟨s, rfl, rfl⟩

theorem modifyPlayer (f : Player F → Player F) (p : Player F) :
    Plays (modifyPlayer f) p () (f p) := by
  rintro s rfl
  exact ⟨_, rfl, rfl⟩

theorem bind {x : Run F A} {f : A → Run F B} {p p' p'' : Player F} {a : A} {b : B}
    (hx : Plays x p a p') (hf : Plays (f a) p' b p'') : Plays (x >>= f) p b p'' := by
  intro s hs
  obtain ⟨mid, hends, hmid⟩ := hx s hs
  obtain ⟨s', hends', hs'⟩ := hf mid (by rw [hmid])
  exact ⟨s', ends_bind.mpr (.inr ⟨a, mid, hends, hends'⟩), by rw [hs', hmid]⟩

theorem player (p : Player F) : Plays player p p p := by
  rintro s rfl
  exact ⟨s, rfl, rfl⟩

theorem scopedLock {x : Run F A} {m : Mutex} {p p' : Player F} {a : A} (hx : Plays x p a p') :
    Plays (scopedLock m x) p a p' := by
  intro s hs
  obtain ⟨mid, hends, hmid⟩ := hx (locked m s) hs
  refine ⟨_, ends_bind.mpr (.inr ⟨(), _, rfl, ends_bind.mpr (.inr ⟨a, mid, ?_, rfl⟩)⟩), hmid⟩
  exact ends_tryCatch.mpr (.inl ⟨a, rfl, hends⟩)

theorem forM {f : A → Run F Unit} {g : Player F → A → Player F} {l : List A}
    (hf : ∀ a ∈ l, ∀ p, Plays (f a) p () (g p a)) (p : Player F) :
    Plays (l.forM f) p () (l.foldl g p) := by
  induction l generalizing p with
  | nil => exact pure () p
  | cons a l ih =>
    exact bind (hf a List.mem_cons_self p) (ih (fun b hb => hf b (List.mem_cons_of_mem a hb)) _)

end Plays

/-- A run ends as the handler of `Receive` says. -/
inductive Agrees : Except Fault (Except Exception Bool × Machine Mutex (World F)) →
    Except Fault (Outcome × Session F) → Prop
  | undefined (fault : Fault) : Agrees (.error fault) (.error fault)
  | returned {ok : Bool} {s' : Machine Mutex (World F)} {t : Session F}
      (h : s'.world.session = t) : Agrees (.ok (.ok ok, s')) (.ok (.returned ok, t))
  | threw {s' : Machine Mutex (World F)} {t : Session F} (h : s'.world.session = t) :
      Agrees (.ok (.error .poco, s')) (.ok (.threw, t))

theorem agrees_fetch {A : Type} {x : Except Fault A} {f : A → Run F Bool}
    {g : A → Except Fault (Outcome × Session F)} {s : Machine Mutex (World F)}
    (h : ∀ a, x = .ok a → Agrees ((f a).run s) (g a)) :
    Agrees ((fetch x >>= f).run s) (x >>= g) := by
  cases x with
  | error fault => exact .undefined fault
  | ok a => exact h a rfl

theorem agrees_plays {x : Run F Bool} {s : Machine Mutex (World F)} {ok : Bool} {p' : Player F}
    (h : Plays x s.world.session.player ok p') :
    Agrees (x.run s) (.ok (.returned ok, { s.world.session with player := p' })) := by
  obtain ⟨s', hends, hs'⟩ := h s rfl
  rw [show x.run s = _ from hends]
  exact .returned hs'

section Handlers

variable [FloatBits F]

theorem loginData_calm (server : Server F) (buffer : Buffer) (head : Packet Head)
    (s : Machine Mutex (World F)) :
    Agrees ((loginData (calm server) buffer head).run s)
      (Receive.loginData server s.world.session buffer head) := by
  refine agrees_fetch fun ⟨packet, rest⟩ _ => ?_
  show Agrees ((if s.world.session.player.userid ≠ packet.value.userid then pure false
    else _ : Run F Bool).run _) (if _ then _ else _)
  have console : s.world.session.console ++ [.head head] ++ [.login packet] =
      s.world.session.console ++ [.head head, .login packet] := List.append_assoc _ _ _
  rw [← console]
  split
  · exact .returned rfl
  · show Agrees (.ok (.ok (login server.login s.world.session.player packet.value).1, _))
      (.ok (.returned (login server.login s.world.session.player packet.value).1, _))
    exact .returned rfl

omit [FloatBits F] in
theorem consoleMessages_calm (server : Server F) (n i : Nat) (buffer : Buffer)
    (s : Machine Mutex (World F)) :
    Agrees ((consoleMessages (calm server) i n buffer).run s) (do
      let ((outcome, entries), _) ← Receive.consoleMessages server.print n buffer
      pure (outcome, { s.world.session with console := s.world.session.console ++ entries })) := by
  induction n generalizing i buffer s with
  | zero =>
    refine .returned ?_
    rw [List.append_nil]
  | succ n ih =>
    show Agrees ((fetch (readString buffer) >>= fun p => _).run s) _
    cases hread : readString buffer with
    | error fault =>
      rw [Receive.consoleMessages, bind_of_error hread]
      exact .undefined fault
    | ok p =>
      obtain ⟨data, rest⟩ := p
      rw [Receive.consoleMessages, bind_of_ok hread, run_fetch_bind]
      have hprint : (calm server).print i data = server.print data := rfl
      dsimp only
      rw [hprint]
      cases server.print data with
      | printed text =>
        have hrest := ih (i + 1) rest { s with world := { s.world with session :=
          { s.world.session with console := s.world.session.console ++ [.message text] } } }
        dsimp only at hrest ⊢
        cases htail : Receive.consoleMessages server.print n rest with
        | error fault =>
          rw [htail] at hrest
          rw [bind_of_error htail]
          exact hrest
        | ok q =>
          obtain ⟨⟨outcome, entries⟩, c⟩ := q
          rw [htail] at hrest
          rw [bind_of_ok htail]
          have console : s.world.session.console ++ [.message text] ++ entries =
              s.world.session.console ++ .message text :: entries := List.append_assoc _ _ _
          show Agrees _ (.ok (outcome, _))
          rw [← console]
          exact hrest
      | consoleException =>
        refine .returned ?_
        rw [List.append_nil]
      | threw =>
        refine .threw ?_
        rw [List.append_nil]

omit [FloatBits F] in
theorem transform_plays (transforms : List (TransformStruct F)) (p : Player F) :
    Plays (do
      match transforms.getLast? with
      | some node => modifyEntity fun e => { e with toTransform := node.toTransform }
      | none => pure ()
      clearPath
      transforms.forM addToPath
      pure true) p true { p with pEntity := transform p.pEntity transforms } := by
  have clears (p : Player F) : Plays clearPath p () { p with pEntity := p.pEntity.clearPath } :=
    .bind (.player p) (.scopedLock (.modifyPlayer _ p))
  have adds (node : TransformStruct F) (p : Player F) :
      Plays (addToPath node) p () { p with pEntity := p.pEntity.addToPath node } :=
    .bind (.player p) (.scopedLock (.modifyPlayer _ p))
  have path (p : Player F) : Plays (do
      clearPath
      transforms.forM addToPath
      pure true) p true
        { p with pEntity := transforms.foldl Entity.addToPath p.pEntity.clearPath } := by
    have folded : ∀ p : Player F, transforms.foldl (fun p node =>
        { p with pEntity := p.pEntity.addToPath node }) p =
          { p with pEntity := transforms.foldl Entity.addToPath p.pEntity } := by
      induction transforms with
      | nil => exact fun _ => rfl
      | cons node transforms ih => exact fun p => ih _
    refine .bind (clears p) (.bind (.forM (fun node _ p => adds node p) _) ?_)
    rw [folded]
    exact .pure true _
  unfold transform
  cases transforms.getLast? with
  | none => exact path p
  | some node => exact .bind (.modifyPlayer _ p) (path _)

theorem transformData_calm (buffer : Buffer) (head : Packet Head) (s : Machine Mutex (World F)) :
    Agrees ((transformData buffer head).run s)
      (Receive.transformData s.world.session buffer head) := by
  refine agrees_fetch fun ⟨packet, rest⟩ _ => ?_
  exact agrees_plays (transform_plays packet.value s.world.session.player)

end Handlers

theorem keys_plays (server : Server F) (p : Player F) :
    Plays (calm server).keys p server.entities.keys p := by
  rintro s rfl
  rw [← EntityMap.keys_hashMap]
  exact ⟨_, rfl, rfl⟩

theorem tryFind_plays {A : Type} {server : Server F} {cast : Entity F → A}
    {push : A → Player F → Player F} {e : Entity F} (h : e ∈ server.entities.entities)
    (p : Player F) :
    Plays (tryFind (calm server) cast push e.sessionid) p () (push (cast e) p) := by
  rintro s rfl
  obtain ⟨r, mid, hfind, hcases⟩ := find_run (calm server) cast e.sessionid s
  have hlookup := EntityMap.lookup_hashMap h
  rcases hcases with ⟨e', he', rfl, hworld⟩ | ⟨missing, -⟩
  · cases hlookup.symm.trans he'
    refine ⟨_, ends_tryCatch.mpr (.inl ⟨(), rfl, ends_bind.mpr (.inr ⟨_, mid, hfind, rfl⟩)⟩), ?_⟩
    show Session.mk (push (cast e) mid.world.session.player) _ _ = _
    rw [hworld]
  · exact absurd ⟨e, hlookup⟩ missing

theorem checkId_plays {server : Server F} {key : UInt32} (h : key ∈ server.entities.keys)
    (entityState it : UInt32) (p : Player F) :
    Plays (checkId (calm server) server.entities.keys key entityState it) p
      (Receive.checkId server.entities key (entityState, p) it).1
      (Receive.checkId server.entities key (entityState, p) it).2 := by
  have compare : ∀ s : UInt32 × Player F, Plays (if it = key then (do
      transformEntity (calm server) it
      pure 2) else pure s.1 : Run F UInt32) s.2
        (if it = key then (2, s.2.transformEntity server.entities it) else s).1
        (if it = key then (2, s.2.transformEntity server.entities it) else s).2 := by
    intro s
    split
    · rename_i heq
      obtain ⟨e, he, hkey⟩ := List.mem_map.mp (heq ▸ h)
      subst hkey
      refine .bind (a := ()) ?_ (.pure 2 _)
      have hfind : s.2.transformEntity server.entities e.sessionid =
          { s.2 with transformEntityQueue :=
            s.2.transformEntityQueue ++ [e.castTransformEntityStruct] } := by
        rw [Player.transformEntity, EntityMap.findTransformEntityStruct, EntityMap.find_of_mem he]
        rfl
      rw [hfind]
      exact tryFind_plays he s.2
    · exact .pure s.1 s.2
  unfold checkId Receive.checkId
  dsimp only
  split
  · exact .bind (.pure entityState p) (compare (entityState, p))
  · exact .bind (.modifyPlayer _ p) (.bind (.pure 1 _) (compare (1, p.destroyEntity it)))

theorem checkIds_plays {server : Server F} {key : UInt32} (h : key ∈ server.entities.keys)
    (ids : List UInt32) (entityState : UInt32) (p : Player F) :
    Plays (ids.foldlM (checkId (calm server) server.entities.keys key) entityState) p
      (ids.foldl (Receive.checkId server.entities key) (entityState, p)).1
      (ids.foldl (Receive.checkId server.entities key) (entityState, p)).2 := by
  induction ids generalizing entityState p with
  | nil => exact .pure entityState p
  | cons it ids ih => exact .bind (checkId_plays h entityState it p) (ih _ _)

section Rounds

variable [Add F] [Sub F] [Mul F] [LE F] [DecidableLE F]

theorem checkKey_plays {server : Server F} {key : UInt32} (h : key ∈ server.entities.keys)
    (ids : List UInt32) (p : Player F) :
    Plays (checkKey (calm server) server.entities.keys ids key) p ()
      (Receive.checkKey server.entities ids p key) := by
  refine .bind (checkIds_plays h ids 0 p) ?_
  unfold Receive.checkKey
  dsimp only
  split
  · obtain ⟨e, he, rfl⟩ := List.mem_map.mp h
    rw [Player.createEntity, EntityMap.findCreateEntityStruct, EntityMap.find_of_mem he]
    exact tryFind_plays he _
  · exact .pure () _

variable [FloatBits F]

theorem objectsData_calm (server : Server F) (buffer : Buffer) (head : Packet Head)
    (s : Machine Mutex (World F)) :
    Agrees ((objectsData (calm server) buffer head).run s)
      (Receive.objectsData server s.world.session buffer head) := by
  apply agrees_fetch
  rintro ⟨packet, rest⟩ -
  have rounds (p : Player F) : Plays
      (server.entities.keys.forM (checkKey (calm server) server.entities.keys packet.ids)) p ()
      (checkObjects server.entities packet.ids p) :=
    .forM (fun _ hkey p => checkKey_plays hkey packet.ids p) p
  have reply {p : Player F} {ok : Bool} {p' p'' : Player F} (hsent : sendObjects p = (ok, p'))
      (hclear : p'' = if ok then p'.clearAll else p') : Plays (do
        let p ← player
        modifyPlayer fun _ => (sendObjects p).2
        if (sendObjects p).1 = true then do
          modifyPlayer Player.clearAll
          pure true
        else
          pure false) p ok p'' := by
    refine .bind (.player p) ?_
    rw [hsent, hclear]
    refine .bind (.modifyPlayer _ p) ?_
    cases ok with
    | true => exact .bind (.modifyPlayer _ p') (.pure true _)
    | false => exact .pure false p'
  dsimp only
  cases hsent : sendObjects (objectsRound server.entities s.world.session.player packet) with
  | mk ok p =>
    cases ok with
    | true =>
      exact agrees_plays (.bind (.modifyPlayer _ _) (.bind (keys_plays server _) (.bind (rounds _)
        (reply hsent rfl))))
    | false =>
      exact agrees_plays (.bind (.modifyPlayer _ _) (.bind (keys_plays server _) (.bind (rounds _)
        (reply hsent rfl))))

theorem call_calm (server : Server F) (f : ReceiveFunction) (buffer : Buffer) (head : Packet Head)
    (s : Machine Mutex (World F)) :
    Agrees ((call (calm server) f buffer head).run s)
      (Receive.call server f s.world.session buffer head) := by
  cases f with
  | LoginData => exact loginData_calm server buffer head s
  | ConsoleData =>
    show Agrees ((fetch (readUInt32 buffer) >>= fun p => _).run s)
      (readConsole server.print buffer >>= _)
    cases hread : readUInt32 buffer with
    | error fault =>
      rw [readConsole, bind_of_error hread]
      exact .undefined fault
    | ok p =>
      rw [readConsole, bind_of_ok hread]
      exact consoleMessages_calm server p.1.toNat 0 p.2 s
  | TransformData => exact transformData_calm buffer head s
  | ObjectsData => exact objectsData_calm server buffer head s

omit [FloatBits F] [Add F] [Sub F] [Mul F] [LE F] [DecidableLE F] in
theorem sendPackets_calm (server : Server F) (s : Machine Mutex (World F)) :
    ∃ s', Ends (sendPackets (calm server)) s (.ok ()) s' ∧
      s'.world.session = s.world.session.flush := by
  show ∃ s', Ends (s.world.session.player.sendQueue.forM _) s (.ok ()) s' ∧ _
  generalize hqueue : s.world.session.player.sendQueue = queue
  induction queue generalizing s with
  | nil =>
    refine ⟨s, rfl, ?_⟩
    rw [Session.flush, hqueue, List.append_nil, ← hqueue]
  | cons out queue ih =>
    have htail : s.world.session.player.sendQueue.tail = queue := by
      rw [hqueue]
      rfl
    obtain ⟨s', hends, hsession⟩ := ih { s with world := { s.world with session :=
      { s.world.session with
        sent := s.world.session.sent ++ [out]
        player := { s.world.session.player with
          sendQueue := s.world.session.player.sendQueue.tail } } } } htail
    refine ⟨s', ends_bind.mpr (.inr ⟨(), _, rfl, hends⟩), ?_⟩
    rw [hsession, Session.flush, Session.flush]
    dsimp only
    rw [htail, hqueue, List.append_assoc]
    rfl

theorem receive_run {env : Environment F} {buffer : Buffer} {head : Packet Head}
    {f : ReceiveFunction} (hmap : Receive.map head.value.opcode.toUInt32 = some f)
    (s : Machine Mutex (World F)) :
    (receive env buffer head).run s =
      match (call env f buffer head).run
          (locked (.entity s.world.session.player.pEntity.sessionid) s) with
      | .error fault => .error fault
      | .ok (.error e, mid) => .ok (.error e, mid)
      | .ok (.ok ok, mid) => (do
          unlock (.entity s.world.session.player.pEntity.sessionid)
          sendPackets env
          pure (.returned ok) : Run F Outcome).run mid := by
  unfold receive
  rw [hmap]
  show (call env f buffer head >>= fun ok => (do
    unlock (.entity s.world.session.player.pEntity.sessionid)
    sendPackets env
    pure (.returned ok) : Run F Outcome)).run
      (locked (.entity s.world.session.player.pEntity.sessionid) s) = _
  rw [run_bind]
  rcases (call env f buffer head).run _ with fault | ⟨e | ok, mid⟩
  · rfl
  · rfl
  · rfl

/-- In a calm environment the packets are handled as `Receive.dispatch` says. -/
theorem handle_calm (server : Server F) (s : Machine Mutex (World F)) (buffer : Buffer)
    (head : Packet Head) :
    (handle (calm server) s buffer head).map (fun result => (result.1, result.2.world.session)) =
      Receive.dispatch server s.world.session buffer head := by
  unfold handle dispatch Receive.dispatch
  rw [run_tryCatch]
  cases hmap : Receive.map head.value.opcode.toUInt32 with
  | none =>
    unfold receive
    rw [hmap]
    rfl
  | some f =>
    have agrees := call_calm server f buffer head
      (locked (.entity s.world.session.player.pEntity.sessionid) s)
    rw [receive_run hmap]
    dsimp only
    generalize (call (calm server) f buffer head).run _ = ran at agrees ⊢
    replace agrees : Agrees ran (Receive.call server f s.world.session buffer head) := agrees
    generalize Receive.call server f s.world.session buffer head = called at agrees ⊢
    cases agrees with
    | undefined fault => rfl
    | threw hs' =>
      subst hs'
      rfl
    | @returned ok mid t hs' =>
      subst hs'
      obtain ⟨s', hends, hsession⟩ := sendPackets_calm server
        (unlocked (.entity s.world.session.player.pEntity.sessionid) mid)
      have hrest : Ends (do
          unlock (.entity s.world.session.player.pEntity.sessionid)
          sendPackets (calm server)
          pure (Outcome.returned ok) : Run F Outcome) mid (.ok (.returned ok)) s' :=
        ends_bind.mpr (.inr ⟨(), _, rfl, ends_bind.mpr (.inr ⟨(), s', hends, rfl⟩)⟩)
      dsimp only
      rw [show (ExceptT.run (_ : Run F Outcome)) mid = _ from hrest]
      show Except.ok (Outcome.returned ok, s'.world.session) =
        .ok (.returned ok, mid.world.session.flush)
      rw [hsession]
      rfl

end Rounds

end Mutexes

end Starfall
