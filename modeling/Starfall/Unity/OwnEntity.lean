import Starfall.Unity.Network

/-! The entity that a player controls.  The create records of all players have mode 2, and the world
takes the first that it sees for its own.  It is its own, because the client asks for objects only
when it has an entity: whatever the server sent before are the replies to its logins. -/

namespace Starfall.Unity

open ProofKit.Runs

variable {F : Type}

/-- The packets of a client that change its player at the server, or that are replied to. -/
inductive Upward (F : Type)
  | login (packet : Starfall.LoginStruct)
  | transform (path : List (TransformStruct F))
  | objects (objects : ObjectsStruct F)
  deriving DecidableEq, Repr

/-- A client and its player at the server, with the packets that the server has not received,
oldest first. -/
structure Play (F : Type) extends State F where
  /-- The scene of the world is loaded. -/
  started : Bool
  player : Starfall.Player F
  upward : List (Upward F)
  deriving DecidableEq, Repr

inductive PlayEvent (F : Type)
  /-- `Init` sends a login. -/
  | login (packet : Starfall.LoginStruct)
  | loadLevel
  /-- What the threads of the client do. -/
  | client (e : Event F)
  /-- `UpdatePath`, when it sends its path. -/
  | updatePath (path : List (TransformStruct F))
  /-- The server handles a packet, with the table `LOGIN` and the entity map as it finds them. -/
  | handle (login : List LoginRow) (map : EntityMap F)

/-- Whether the client does this before its world is loaded, after it, or not at all. -/
def Play.allows (s : Play F) : Event F → Bool
  | .receivePacket | .perform => true
  | .objectsData _ _ => false
  | _ => s.started

section Steps

variable [FloatBits F] [Add F] [Sub F] [Mul F] [LE F] [DecidableLE F]

/-- What the handler of a packet leaves of the player, and the packets that it sends and that are
for the world of the client.  The reply to a login is not. -/
def handled (login : List LoginRow) (map : EntityMap F) (p : Starfall.Player F) :
    Upward F → Starfall.Player F × List (Message F)
  | .login packet =>
    if p.userid ≠ packet.userid then (p, [])
    else
      let p' := (Receive.login login p packet).2
      (p', [.createEntity (p.createEntityQueue ++ [p'.pEntity.castCreateEntityStruct])])
  | .transform path => ({ p with pEntity := Receive.transform p.pEntity path }, [])
  | .objects objects => ((Receive.objectsRound map p objects).clearAll, answer map p objects)

/-- The state after an event, if it can happen.  The requests of the client go behind its other
packets. -/
def Play.next (s : Play F) : PlayEvent F → Option (Play F)
  | .login packet =>
    if s.started then none else some { s with upward := s.upward ++ [.login packet] }
  | .loadLevel => some { s with started := true }
  | .client e =>
    if s.allows e then
      (Unity.next s.toState e).map fun after => { s with
        toState := { after with requests := [] }
        upward := s.upward ++ after.requests.map .objects }
    else none
  | .updatePath path =>
    if s.phase = .timers ∧ s.world.entity.isSome then
      some { s with upward := s.upward ++ [.transform path] }
    else none
  | .handle login map =>
    match s.upward with
    | packet :: upward =>
      let (player, messages) := handled login map s.player packet
      some { s with player, upward, incoming := s.incoming ++ messages }
    | [] => none

/-- A fresh client and the player of its connection. -/
def play : System (Play F) (PlayEvent F) where
  init s := ∃ radius transform sessionid, s =
    { world := ⟨[], none, ⟨1, radius, [], [], []⟩⟩, phase := .destroyEntities, todo := []
      incoming := [], requests := [], started := false
      player := Starfall.Player.create transform sessionid, upward := [] }
  step s e s' := s.next e = some s'

end Steps

/-- The record is one of the player's entity. -/
def IsOwn (p : Starfall.Player F) (c : CreateEntityStruct F) : Prop :=
  c.sessionid = p.pEntity.sessionid ∧ c.mode = 2

/-- The player at the server, between two packets. -/
structure Idle (p : Starfall.Player F) : Prop where
  mode : p.pEntity.mode = 2
  queue : p.createEntityQueue = []

/-- The world is empty, and all that is under way are records of the player's entity. -/
structure Waiting (s : Play F) : Prop where
  objects : s.world.objects = []
  entity : s.world.entity = none
  queue : ∀ c ∈ s.world.user.createEntityQueue, IsOwn s.player c
  todo : ∀ action ∈ s.todo, ∃ c, action = .createEntity c ∧ IsOwn s.player c
  incoming : ∀ message ∈ s.incoming, ∃ creates, message = .createEntity creates ∧
    ∀ c ∈ creates, IsOwn s.player c
  upward : ∀ packet ∈ s.upward, ∃ l, packet = .login l

/-- The objects without `remoteControls`, which are not a `RemoteControlledEntity`. -/
def controlled (objects : List (Entity F)) : List (Entity F) :=
  objects.filter fun obj => obj.remoteControls.isNone

/-- The world has the entity of the player, and no other that is not remote-controlled. -/
structure Spawned (w : World F) (own : Entity F) : Prop where
  entity : w.entity = some own
  objects : controlled w.objects = [own]

theorem controlled_cons (obj : Entity F) (objects : List (Entity F)) :
    controlled (obj :: objects) = controlled [obj] ++ controlled objects := by
  rw [← List.singleton_append, controlled, List.filter_append]
  rfl

/-- Destroying removes only objects that are remote-controlled. -/
theorem removeAll_controlled {own : Entity F} {sessionid : UInt32}
    {objects objects' : List (Entity F)}
    (h : World.removeAll (some own) sessionid objects = some objects')
    (hown : ∀ obj ∈ controlled objects, obj.sessionid = own.sessionid) :
    controlled objects' = controlled objects := by
  have other : ∀ (obj : Entity F) objects, obj.sessionid ≠ own.sessionid →
      (∀ o ∈ controlled (obj :: objects), o.sessionid = own.sessionid) →
      controlled (obj :: objects) = controlled objects := by
    intro obj objects hne hall
    refine List.filter_cons_of_neg fun hnone => hne (hall obj ?_)
    exact List.mem_filter.mpr ⟨List.mem_cons_self, hnone⟩
  have rest : ∀ (obj : Entity F) objects,
      (∀ o ∈ controlled (obj :: objects), o.sessionid = own.sessionid) →
      ∀ o ∈ controlled objects, o.sessionid = own.sessionid := by
    intro obj objects hall o ho
    rw [controlled_cons] at hall
    exact hall o (List.mem_append_right _ ho)
  fun_induction World.removeAll (some own) sessionid objects generalizing objects' with
  | case1 =>
    cases h
    rfl
  | case2 _ _ _ hnone => cases hnone
  | case3 obj hid _ hsome hne =>
    cases hsome
    cases h
    exact (other obj [] (hid ▸ hne) hown).symm
  | case4 obj hid _ hsome hne next objects ih =>
    cases hsome
    obtain ⟨objects', hobjects, rfl⟩ := Option.map_eq_some_iff.mp h
    have hnext := rest obj _ hown
    rw [other obj _ (hid ▸ hne) hown, controlled_cons next objects', controlled_cons next objects,
      ih hobjects (rest next _ hnext)]
  | case5 obj objects hid _ hsome hne ih =>
    cases hsome
    obtain ⟨objects', hobjects, rfl⟩ := Option.map_eq_some_iff.mp h
    rw [controlled_cons obj objects', controlled_cons obj objects, ih hobjects (rest obj _ hown)]
  | case6 obj objects hid ih =>
    obtain ⟨objects', hobjects, rfl⟩ := Option.map_eq_some_iff.mp h
    rw [controlled_cons obj objects', controlled_cons obj objects, ih hobjects (rest obj _ hown)]

theorem destroyAll_controlled {own : Entity F} {objects objects' : List (Entity F)}
    {queue : List DestroyEntityStruct}
    (h : World.destroyAll (some own) objects queue = some objects')
    (hown : controlled objects = [own]) : controlled objects' = [own] := by
  induction queue generalizing objects' with
  | nil =>
    cases h
    exact hown
  | cons d queue ih =>
    obtain ⟨mid, hmid, h⟩ := Option.bind_eq_some_iff.mp h
    have hmid := ih hmid
    rw [removeAll_controlled h ?_, hmid]
    rw [hmid]
    exact List.forall_mem_singleton.mpr rfl

theorem Spawned.updateDestroyEntities {w w' : World F} {own : Entity F} (h : Spawned w own)
    (step : w.updateDestroyEntities = some w') : Spawned w' own := by
  obtain ⟨objects, hobjects, step⟩ := Option.bind_eq_some_iff.mp step
  cases step
  rw [h.entity] at hobjects
  exact ⟨h.entity, destroyAll_controlled hobjects h.objects⟩

/-- Once the world has the player's entity, every other one is created remote-controlled. -/
theorem Spawned.create {w : World F} {own : Entity F} (h : Spawned w own)
    (c : CreateEntityStruct F) : Spawned (w.create c) own := by
  have hsome : w.entity.isSome := by rw [h.entity]; rfl
  have hremote : controlled [World.instantiate w.entity c] = [] := by
    refine List.filter_cons_of_neg ?_
    rw [World.instantiate, h.entity]
    by_cases hmode : c.mode = 2
    · simp [hmode]
    · simp [hmode]
  rw [World.create_eq hsome]
  refine ⟨h.entity, ?_⟩
  show controlled (w.objects ++ [_]) = _
  rw [controlled, List.filter_append]
  show controlled w.objects ++ controlled [_] = _
  rw [h.objects, hremote, List.append_nil]

theorem Spawned.updateCreateEntities {w : World F} {own : Entity F} (h : Spawned w own) :
    Spawned w.updateCreateEntities own := by
  have loop : ∀ queue : List (CreateEntityStruct F),
      Spawned (queue.foldr (fun c w => w.create c) w) own := fun queue => by
    induction queue with
    | nil => exact h
    | cons c queue ih => exact ih.create c
  exact ⟨(loop _).entity, (loop _).objects⟩

theorem moved_controlled (move : Entity F → Transform F × RemoteController F)
    (objects : List (Entity F)) :
    controlled (objects.map (World.moved move)) = controlled objects := by
  induction objects with
  | nil => rfl
  | cons obj objects ih =>
    rw [List.map_cons, controlled_cons, controlled_cons obj, ih]
    congr 1
    unfold World.moved
    split
    · rename_i hsome
      have hne := Option.isSome_iff_ne_none.mp hsome
      rw [controlled, controlled, List.filter_cons_of_neg (by simp),
        List.filter_cons_of_neg (by simp [hne])]
    · rfl

theorem followAll_controlled (sessionid : UInt32) (path : List (TransformStruct F))
    (objects : List (Entity F)) :
    controlled (World.followAll sessionid path objects) = controlled objects := by
  fun_induction World.followAll sessionid path objects with
  | case1 => rfl
  | case2 path obj objects controls hcontrols hid ih =>
    rw [controlled_cons, controlled_cons obj objects, ih]
    congr 1
    rw [controlled, controlled, List.filter_cons_of_neg (by simp [World.follow]),
      List.filter_cons_of_neg (by simp [hcontrols])]
  | case3 path obj objects controls hcontrols hid ih =>
    rw [controlled_cons, controlled_cons obj objects, ih]
  | case4 path obj objects hcontrols ih =>
    rw [controlled_cons, controlled_cons obj objects, ih]

theorem Spawned.updateRemoteControls {w : World F} {own : Entity F} (h : Spawned w own)
    (move : Entity F → Transform F × RemoteController F) :
    Spawned (w.updateRemoteControls move) own := by
  refine ⟨h.entity, ?_⟩
  rw [World.updateRemoteControls]
  dsimp only
  induction w.user.transformEntityQueue with
  | nil => rw [List.foldr_nil, moved_controlled, h.objects]
  | cons t queue ih => rw [List.foldr_cons, followAll_controlled, ih]

/-- The record that is taken first makes the player's entity, if there is a record. -/
theorem updateCreateEntities_first {w : World F} {p : Starfall.Player F} (hobjects : w.objects = [])
    (hentity : w.entity = none) (hqueue : ∀ c ∈ w.user.createEntityQueue, IsOwn p c) :
    w.updateCreateEntities = w ∨ ∃ own, Spawned w.updateCreateEntities own ∧
      own.sessionid = p.pEntity.sessionid := by
  have loop : ∀ queue : List (CreateEntityStruct F), (∀ c ∈ queue, IsOwn p c) → queue = [] ∨
      ∃ own, Spawned (queue.foldr (fun c w => w.create c) w) own ∧
        own.sessionid = p.pEntity.sessionid := by
    intro queue hown
    induction queue with
    | nil => exact .inl rfl
    | cons c queue ih =>
      obtain ⟨hid, hmode⟩ := hown c List.mem_cons_self
      rcases ih fun d hd => hown d (List.mem_cons_of_mem _ hd) with rfl | ⟨own, hspawned, hsession⟩
      · refine .inr ⟨World.instantiate none c, ⟨?_, ?_⟩, hid⟩
        · simp [World.create, World.instantiate, hentity, hmode]
        · simp [World.create, World.instantiate, hentity, hmode, hobjects, controlled]
      · exact .inr ⟨own, hspawned.create c, hsession⟩
  rcases loop _ hqueue with hnil | ⟨own, hspawned, hsession⟩
  · exact .inl (World.updateCreateEntities_nil hnil)
  · exact .inr ⟨own, ⟨hspawned.entity, hspawned.objects⟩, hsession⟩

section Steps

variable [FloatBits F] [Add F] [Sub F] [Mul F] [LE F] [DecidableLE F]

omit [Add F] [Sub F] [Mul F] [LE F] [DecidableLE F] in
theorem login_pEntity (rows : List LoginRow) (p : Starfall.Player F)
    (packet : Starfall.LoginStruct) :
    ∃ name, (Receive.login rows p packet).2.pEntity = { p.pEntity with displayName := name } ∧
      (Receive.login rows p packet).2.createEntityQueue = [] := by
  unfold Receive.login Send.loginReply Send.createEntityData
  cases tryLogin rows packet with
  | none => exact ⟨_, rfl, rfl⟩
  | some loginStruct => exact ⟨_, rfl, rfl⟩

/-- A handler keeps the session id and the mode of the player's entity. -/
theorem handled_idle {p : Starfall.Player F} (idle : Idle p) (login : List LoginRow)
    (map : EntityMap F) (packet : Upward F) :
    Idle (handled login map p packet).1 ∧
      (handled login map p packet).1.pEntity.sessionid = p.pEntity.sessionid := by
  cases packet with
  | login l =>
    obtain ⟨name, hentity, hqueue⟩ := login_pEntity login p l
    rw [handled]
    split
    · exact ⟨idle, rfl⟩
    · dsimp only
      exact ⟨⟨by rw [hentity]; exact idle.mode, hqueue⟩, by rw [hentity]⟩
  | transform path =>
    rw [handled, Receive.transform_eq]
    exact ⟨⟨idle.mode, idle.queue⟩, rfl⟩
  | objects objects =>
    obtain ⟨creates, destroys, transforms, hround⟩ := Receive.objectsRound_push map p objects
    rw [handled, hround]
    exact ⟨⟨idle.mode, rfl⟩, rfl⟩

/-- The reply to a login has a record of the player's entity. -/
theorem handled_login {p : Starfall.Player F} (idle : Idle p) (login : List LoginRow)
    (map : EntityMap F) (l : Starfall.LoginStruct) :
    ∀ message ∈ (handled login map p (.login l)).2, ∃ creates, message = .createEntity creates ∧
      ∀ c ∈ creates, IsOwn p c := by
  obtain ⟨name, hentity, -⟩ := login_pEntity login p l
  intro message hmem
  rw [handled] at hmem
  split at hmem
  · cases hmem
  · dsimp only at hmem
    rw [idle.queue, List.nil_append, hentity] at hmem
    refine ⟨_, List.mem_singleton.mp hmem, List.forall_mem_singleton.mpr ⟨rfl, ?_⟩⟩
    exact idle.mode

omit [FloatBits F] in
theorem Spawned.next {s after : State F} {own : Entity F} {e : Event F} (h : Spawned s.world own)
    (step : Unity.next s e = some after) : Spawned after.world own := by
  cases e with
  | updateDestroyEntities =>
    simp only [Unity.next] at step
    split at step
    · obtain ⟨world, hworld, rfl⟩ := Option.map_eq_some_iff.mp step
      exact h.updateDestroyEntities hworld
    · cases step
  | receivePacket =>
    cases next_effect step
    exact h
  | perform =>
    cases next_effect step
    exact ⟨h.entity, h.objects⟩
  | updateCreateEntities =>
    cases next_effect step
    exact h.updateCreateEntities
  | updateRemoteControls move =>
    cases next_effect step
    exact h.updateRemoteControls move
  | updateTimers timer =>
    cases next_effect step with
    | waited => exact h
    | requested clip => exact ⟨h.entity, h.objects⟩
  | objectsData map p =>
    cases next_effect step
    exact h

/-- The world has no entity yet, or that of the player. -/
def Played (s : Play F) : Prop :=
  Waiting s ∨ ∃ own, Spawned s.world own ∧ own.sessionid = s.player.pEntity.sessionid

omit [FloatBits F] in
/-- What the client does before it has an entity, it does with records of the player's. -/
theorem Waiting.client {s : Play F} (h : Waiting s) (hrequests : s.requests = []) {e : Event F}
    (hallows : s.allows e) {after : State F} (effect : Effect s.toState e after) :
    after.requests = [] ∧ Played { s with toState := { after with requests := [] } } := by
  obtain ⟨hobjects, hentity, hqueue, htodo, hincoming, hupward⟩ := h
  cases effect with
  | @receivePacket message incoming hnil hmessage =>
    rw [hmessage] at hincoming
    obtain ⟨creates, rfl, hcreates⟩ := hincoming message List.mem_cons_self
    refine ⟨hrequests, .inl ⟨hobjects, hentity, hqueue, ?_, ?_, hupward⟩⟩
    · intro action haction
      obtain ⟨c, hc, rfl⟩ := List.mem_map.mp haction
      exact ⟨c, rfl, hcreates c hc⟩
    · exact fun message hmem => hincoming message (List.mem_cons_of_mem _ hmem)
  | @perform action todo hcons =>
    rw [hcons] at htodo
    obtain ⟨c, rfl, hc⟩ := htodo action List.mem_cons_self
    refine ⟨hrequests, .inl ⟨hobjects, hentity, ?_, ?_, hincoming, hupward⟩⟩
    · exact List.forall_mem_append.mpr ⟨hqueue, List.forall_mem_singleton.mpr hc⟩
    · exact fun action hmem => htodo action (List.mem_cons_of_mem _ hmem)
  | destroyed hsublist =>
    rw [hobjects] at hsublist
    exact ⟨hrequests, .inl
      ⟨List.sublist_nil.mp hsublist, hentity, hqueue, htodo, hincoming, hupward⟩⟩
  | created =>
    refine ⟨hrequests, ?_⟩
    rcases updateCreateEntities_first hobjects hentity hqueue with hsame | hspawned
    · refine .inl ?_
      rw [hsame]
      exact ⟨hobjects, hentity, hqueue, htodo, hincoming, hupward⟩
    · exact .inr hspawned
  | moved move =>
    have hids := s.world.updateRemoteControls_ids move
    rw [World.ids, World.ids, hobjects] at hids
    exact ⟨hrequests, .inl
      ⟨List.map_eq_nil_iff.mp hids, hentity, hqueue, htodo, hincoming, hupward⟩⟩
  | waited timer =>
    exact ⟨hrequests, .inl ⟨hobjects, hentity, hqueue, htodo, hincoming, hupward⟩⟩
  | requested clip hsome =>
    rw [hentity] at hsome
    cases hsome
  | answered map p => cases hallows

theorem Played.step {s s' : Play F} {e : PlayEvent F} (idle : Idle s.player)
    (hrequests : s.requests = []) (h : Played s) (step : s.next e = some s') :
    Idle s'.player ∧ s'.requests = [] ∧ Played s' ∧
      s'.player.pEntity.sessionid = s.player.pEntity.sessionid ∧
      ∀ own, Spawned s.world own → Spawned s'.world own := by
  cases e with
  | login packet =>
    simp only [Play.next] at step
    split at step
    · cases step
    · cases step
      refine ⟨idle, hrequests, h.imp_left fun waiting => ?_, rfl, fun own hown => hown⟩
      refine { waiting with upward := List.forall_mem_append.mpr ⟨waiting.upward, ?_⟩ }
      exact List.forall_mem_singleton.mpr ⟨packet, rfl⟩
  | loadLevel =>
    cases step
    exact ⟨idle, hrequests, h.imp_left fun waiting => { waiting with }, rfl, fun own hown => hown⟩
  | client e =>
    simp only [Play.next] at step
    split at step
    · rename_i hallows
      obtain ⟨after, hafter, rfl⟩ := Option.map_eq_some_iff.mp step
      refine ⟨idle, rfl, ?_, rfl, fun own hown => ?_⟩
      · rcases h with waiting | ⟨own, hown, hsession⟩
        · obtain ⟨hnone, hplayed⟩ := waiting.client hrequests hallows (next_effect hafter)
          rw [hnone, List.map_nil, List.append_nil]
          exact hplayed
        · have hspawned := hown.next hafter
          exact .inr ⟨own, ⟨hspawned.entity, hspawned.objects⟩, hsession⟩
      · have hspawned := hown.next hafter
        exact ⟨hspawned.entity, hspawned.objects⟩
    · cases step
  | updatePath path =>
    simp only [Play.next] at step
    split at step
    · rename_i hentity
      cases step
      refine ⟨idle, hrequests, ?_, rfl, fun own hown => hown⟩
      rcases h with waiting | hown
      · rw [waiting.entity] at hentity
        cases hentity.2
      · exact .inr hown
    · cases step
  | handle login map =>
    simp only [Play.next] at step
    split at step
    · rename_i packet upward hupward
      obtain ⟨hidle, hsession⟩ := handled_idle idle login map packet
      cases step
      refine ⟨hidle, hrequests, ?_, hsession, fun own hown => hown⟩
      rcases h with waiting | ⟨own, hown, hid⟩
      · have same : ∀ c, IsOwn s.player c → IsOwn (handled login map s.player packet).1 c := by
          rintro c ⟨hid, hmode⟩
          exact ⟨hid.trans hsession.symm, hmode⟩
        obtain ⟨hobjects, hentity, hqueue, htodo, hincoming, hlogins⟩ := waiting
        rw [hupward] at hlogins
        obtain ⟨l, rfl⟩ := hlogins packet List.mem_cons_self
        refine .inl ⟨hobjects, hentity, fun c hc => same c (hqueue c hc), fun action hmem => ?_,
          fun message hmem => ?_, fun packet hmem => hlogins packet (List.mem_cons_of_mem _ hmem)⟩
        · obtain ⟨c, rfl, hc⟩ := htodo action hmem
          exact ⟨c, rfl, same c hc⟩
        · have hsent : ∃ creates, message = .createEntity creates ∧
              ∀ c ∈ creates, IsOwn s.player c := by
            rcases List.mem_append.mp hmem with hmem | hmem
            · exact hincoming message hmem
            · exact handled_login idle login map l message hmem
          obtain ⟨creates, rfl, hcreates⟩ := hsent
          exact ⟨creates, rfl, fun c hc => same c (hcreates c hc)⟩
      · exact .inr ⟨own, hown, hid.trans hsession.symm⟩
    · cases step

/-- What holds between two events. -/
structure Sound (s : Play F) : Prop where
  idle : Idle s.player
  requests : s.requests = []
  played : Played s

theorem play_sound {ls : List (PlayEvent F)} {s : Play F} (run : play.Run ls s) : Sound s := by
  refine run.invariant (I := fun _ s => Sound s) ?_ ?_
  · rintro s ⟨radius, transform, sessionid, rfl⟩
    exact ⟨⟨rfl, rfl⟩, rfl, .inl ⟨rfl, rfl, nofun, nofun, nofun, nofun⟩⟩
  · intro ls s e s' _ h step
    obtain ⟨hidle, hrequests, hplayed, -, -⟩ := h.played.step h.idle h.requests step
    exact ⟨hidle, hrequests, hplayed⟩

omit [FloatBits F] [Add F] [Sub F] [Mul F] [LE F] [DecidableLE F] in
theorem Sound.spawned {s : Play F} (h : Sound s) {own : Entity F}
    (hentity : s.world.entity = some own) :
    Spawned s.world own ∧ own.sessionid = s.player.pEntity.sessionid := by
  rcases h.played with waiting | ⟨own', hspawned, hsession⟩
  · rw [waiting.entity] at hentity
    cases hentity
  · have hsame := hspawned.entity
    rw [hentity] at hsame
    cases hsame
    exact ⟨hspawned, hsession⟩

theorem Sound.exec {s s' : Play F} {ls : List (PlayEvent F)} {own : Entity F} (h : Sound s)
    (hspawned : Spawned s.world own) (hexec : System.exec Play.next s ls = some s') :
    Sound s' ∧ Spawned s'.world own := by
  induction ls generalizing s with
  | nil =>
    cases hexec
    exact ⟨h, hspawned⟩
  | cons e ls ih =>
    obtain ⟨mid, hmid, hrest⟩ := Option.bind_eq_some_iff.mp hexec
    obtain ⟨hidle, hrequests, hplayed, -, hkept⟩ := h.played.step h.idle h.requests hmid
    exact ih ⟨hidle, hrequests, hplayed⟩ (hkept own hspawned) hrest

/-- The entity of the world is that of the player at the server and every other object is
remote-controlled.  It stays both in whatever happens next. -/
theorem entity_own (ls : List (PlayEvent F)) (s : Play F) (run : play.Run ls s) (own : Entity F)
    (hentity : s.world.entity = some own) :
    own.sessionid = s.player.pEntity.sessionid ∧
      (∃ before after, s.world.objects = before ++ own :: after ∧
        ∀ obj ∈ before ++ after, obj.remoteControls.isSome) ∧
      ∀ ls' s', System.exec Play.next s ls' = some s' →
        s'.world.entity = some own ∧ own.sessionid = s'.player.pEntity.sessionid := by
  have sound := play_sound run
  obtain ⟨hspawned, hsession⟩ := sound.spawned hentity
  refine ⟨hsession, ?_, fun ls' s' hexec => ?_⟩
  · obtain ⟨before, after, hobjects, hbefore, -, hafter⟩ :=
      List.filter_eq_cons_iff.mp hspawned.objects
    refine ⟨before, after, hobjects, fun obj hmem => ?_⟩
    rw [Option.isSome_iff_ne_none]
    rcases List.mem_append.mp hmem with hmem | hmem
    · simpa using hbefore obj hmem
    · simpa using List.filter_eq_nil_iff.mp hafter obj hmem
  · obtain ⟨sound', hspawned'⟩ := sound.exec hspawned hexec
    exact ⟨hspawned'.entity, (sound'.spawned hspawned'.entity).2⟩

end Steps

/-- A login, and the first update of the world after it. -/
def firstUpdate : List (PlayEvent UInt32) :=
  [.login ⟨0, 0, 0, Str.ofString "root", []⟩,
    .handle [⟨7, 0, Str.ofString "root", []⟩] ⟨[], List.nodup_nil⟩,
    .client .receivePacket, .client .perform, .loadLevel, .client .updateDestroyEntities,
    .client .updateCreateEntities]

def freshPlay : Play UInt32 :=
  { world := ⟨[], none, ⟨1, 0, [], [], []⟩⟩, phase := .destroyEntities, todo := []
    incoming := [], requests := [], started := false
    player := Starfall.Player.create ⟨⟨0, 0, 0⟩, ⟨0, 0, 0, 0⟩⟩ 5, upward := [] }

theorem firstUpdate_own : ∃ s own, play.Run firstUpdate s ∧ s.world.entity = some own ∧
    own.sessionid = s.player.pEntity.sessionid ∧ own.sessionid = 5 := by
  have start : play.Run [] freshPlay := .nil ⟨_, _, _, rfl⟩
  obtain ⟨s, own, hexec, hentity, hid⟩ : ∃ s own,
      System.exec Play.next freshPlay firstUpdate = some s ∧ s.world.entity = some own ∧
        own.sessionid = 5 := ⟨_, _, rfl, rfl, rfl⟩
  have run := start.of_exec (fun _ _ _ h => h) hexec
  exact ⟨s, own, run, hentity, (entity_own _ _ run own hentity).1, hid⟩

end Starfall.Unity
