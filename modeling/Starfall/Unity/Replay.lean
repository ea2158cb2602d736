import Starfall.Server.Connection
import Starfall.Unity.FromServer
import Starfall.Unity.ToServer

/-! The replay of a path.  The nodes that a client walked go to the server in their order, become
the path of its entity there, and go on to the clients that list the entity.  Such a client takes
the path from its end into the targets of the entity, and `Next` takes the targets from their end.
-/

namespace Starfall.Unity

open ProofKit.Reading

variable {F : Type}

namespace RemoteController

/-- `Next`: the target that it takes, if there is one left, and the controller after it. -/
def next (c : RemoteController F) : Option (TransformStruct F) × RemoteController F :=
  match c.targets.getLast? with
  | some nextTarget => (some nextTarget, ⟨some nextTarget, c.targets.dropLast⟩)
  | none => (none, c)

/-- The targets that as many calls of `Next` take, and the controller after them. -/
def nexts : Nat → RemoteController F → List (TransformStruct F) × RemoteController F
  | 0, c => ([], c)
  | n + 1, c =>
    let (target, c) := c.next
    let (targets, c) := nexts n c
    (target.toList ++ targets, c)

/-- The calls of `Next` take the nodes of the path, each once and in order, and then change
nothing. -/
def Replays (c : RemoteController F) (path : List (TransformStruct F)) : Prop :=
  ∀ n, (c.nexts n).1 = path.take n ∧
    (path.length ≤ n → (c.nexts n).2.next = (none, (c.nexts n).2))

theorem replays_of_reverse {c : RemoteController F} {path : List (TransformStruct F)}
    (h : c.targets = path.reverse) : c.Replays path := by
  intro n
  induction n generalizing c path with
  | zero =>
    refine ⟨rfl, fun hpath => ?_⟩
    rw [List.eq_nil_of_length_eq_zero (Nat.le_zero.mp hpath)] at h
    rw [nexts, next, h]
    rfl
  | succ n ih =>
    cases path with
    | nil =>
      have hnext : c.next = (none, c) := by
        rw [next, h]
        rfl
      obtain ⟨htaken, hend⟩ := ih h
      rw [nexts, hnext]
      exact ⟨htaken.trans List.take_nil, fun _ => hend (Nat.zero_le n)⟩
    | cons node path =>
      have hnext : c.next = (some node, ⟨some node, path.reverse⟩) := by
        rw [next, h, List.reverse_cons, List.getLast?_append, List.dropLast_concat]
        rfl
      have hrest : (⟨some node, path.reverse⟩ : RemoteController F).targets = path.reverse := rfl
      obtain ⟨htaken, hend⟩ := ih hrest
      rw [nexts, hnext]
      refine ⟨?_, fun hpath => hend (Nat.le_of_succ_le_succ hpath)⟩
      show node :: (nexts n ⟨some node, path.reverse⟩).1 = _
      rw [htaken, List.take_succ_cons]

end RemoteController

namespace World

/-- The first `RemoteControlledEntity` with the session id. -/
def remote (sessionid : UInt32) (objects : List (Entity F)) : Option (Entity F) :=
  objects.find? fun obj => obj.sessionid = sessionid ∧ obj.remoteControls.isSome

theorem remote_moved (move : Entity F → Transform F × RemoteController F) (sessionid : UInt32)
    (objects : List (Entity F)) :
    remote sessionid (objects.map (moved move)) = (remote sessionid objects).map (moved move) := by
  rw [remote, List.find?_map]
  simp only [Function.comp_def, moved_same]
  rfl

theorem remote_cons_of_pos {sessionid : UInt32} {obj : Entity F} (objects : List (Entity F))
    (h : obj.sessionid = sessionid ∧ obj.remoteControls.isSome) :
    remote sessionid (obj :: objects) = some obj :=
  List.find?_cons_of_pos (decide_eq_true h)

theorem remote_cons_of_neg {sessionid : UInt32} {obj : Entity F} (objects : List (Entity F))
    (h : ¬(obj.sessionid = sessionid ∧ obj.remoteControls.isSome)) :
    remote sessionid (obj :: objects) = remote sessionid objects :=
  List.find?_cons_of_neg (by rwa [decide_eq_true_eq])

/-- A record makes the first remote-controlled entity with its id follow its path. -/
theorem remote_followAll {sessionid : UInt32} {path : List (TransformStruct F)}
    {objects : List (Entity F)} {obj : Entity F} {controls : RemoteController F}
    (h : remote sessionid objects = some obj) (hcontrols : obj.remoteControls = some controls) :
    remote sessionid (followAll sessionid path objects) = some (follow obj controls path) := by
  fun_induction followAll sessionid path objects with
  | case1 => cases h
  | case2 path o objects c hc hid ih =>
    rw [remote_cons_of_pos objects ⟨hid, by rw [hc]; rfl⟩] at h
    cases h
    rw [hcontrols] at hc
    cases hc
    exact remote_cons_of_pos _ ⟨hid, rfl⟩
  | case3 path o objects c hc hid ih =>
    rw [remote_cons_of_neg objects fun h => hid h.1] at h
    rw [remote_cons_of_neg _ fun h => hid h.1]
    exact ih h
  | case4 path o objects hc ih =>
    have hremote : ¬(o.sessionid = sessionid ∧ o.remoteControls.isSome) := by simp [hc]
    rw [remote_cons_of_neg objects hremote] at h
    rw [remote_cons_of_neg _ hremote]
    exact ih h

/-- A record for another id leaves it alone. -/
theorem remote_followAll_ne {sessionid other : UInt32} (hne : other ≠ sessionid)
    (path : List (TransformStruct F)) (objects : List (Entity F)) :
    remote sessionid (followAll other path objects) = remote sessionid objects := by
  fun_induction followAll other path objects with
  | case1 => rfl
  | case2 path obj objects controls hcontrols hid ih =>
    have hobj : obj.sessionid ≠ sessionid := fun h => hne (hid.symm.trans h)
    have hfollow : (follow obj controls path).sessionid ≠ sessionid := hobj
    rw [remote_cons_of_neg _ fun h => hfollow h.1, ih,
      remote_cons_of_neg objects fun h => hobj h.1]
  | case3 path obj objects controls hcontrols hid ih =>
    rw [remote, remote, List.find?_cons, List.find?_cons]
    split
    · rfl
    · exact ih
  | case4 path obj objects hcontrols ih =>
    rw [remote, remote, List.find?_cons, List.find?_cons]
    split
    · rfl
    · exact ih

/-- When the records for the id all have the path, the entity follows it. -/
theorem remote_followQueue {sessionid : UInt32} {path : List (TransformStruct F)}
    {objects : List (Entity F)} {queue : List (TransformEntityStruct F)}
    (hremote : (remote sessionid objects).isSome)
    (hpath : ∀ t ∈ queue, t.sessionid = sessionid → t.path = path) :
    ∃ obj, remote sessionid (queue.foldr (fun t => followAll t.sessionid t.path) objects) =
        some obj ∧ ((∃ t ∈ queue, t.sessionid = sessionid) →
          ∃ controls, obj.remoteControls = some controls ∧ controls.targets = path.reverse) := by
  induction queue with
  | nil =>
    obtain ⟨obj, hobj⟩ := Option.isSome_iff_exists.mp hremote
    exact ⟨obj, hobj, nofun⟩
  | cons t queue ih =>
    obtain ⟨obj, hobj, hfollows⟩ := ih fun t ht => hpath t (List.mem_cons_of_mem _ ht)
    rw [List.foldr_cons]
    by_cases hid : t.sessionid = sessionid
    · have hsome := List.find?_some hobj
      rw [decide_eq_true_eq] at hsome
      obtain ⟨controls, hcontrols⟩ := Option.isSome_iff_exists.mp hsome.2
      rw [hid, hpath t List.mem_cons_self hid]
      exact ⟨_, remote_followAll hobj hcontrols, fun _ => ⟨_, rfl, rfl⟩⟩
    · refine ⟨obj, (remote_followAll_ne hid _ _).trans hobj, ?_⟩
      rintro ⟨t', ht', hid'⟩
      rcases List.mem_cons.mp ht' with rfl | ht'
      · exact absurd hid' hid
      · exact hfollows ⟨t', ht', hid'⟩

/-- A tick with records for the id that have the path replays it. -/
theorem remote_replays {w : World F} {sessionid : UInt32} {path : List (TransformStruct F)}
    (move : Entity F → Transform F × RemoteController F)
    (hremote : (remote sessionid w.objects).isSome)
    (hqueue : ∃ t ∈ w.user.transformEntityQueue, t.sessionid = sessionid)
    (hpath : ∀ t ∈ w.user.transformEntityQueue, t.sessionid = sessionid → t.path = path) :
    ∃ obj controls, remote sessionid (w.updateRemoteControls move).objects = some obj ∧
      obj.remoteControls = some controls ∧ controls.Replays path := by
  have hmoved : (remote sessionid (w.objects.map (moved move))).isSome := by
    rwa [remote_moved, Option.isSome_map]
  obtain ⟨obj, hobj, hfollows⟩ := remote_followQueue hmoved hpath
  obtain ⟨controls, hcontrols, htargets⟩ := hfollows hqueue
  exact ⟨obj, controls, hobj, hcontrols, RemoteController.replays_of_reverse htargets⟩

end World

namespace GameClient

open Receive

/-- The records that a server with the map sends to a client that lists the ids. -/
def transformed (map : EntityMap F) (ids : List UInt32) : List (TransformEntityStruct F) :=
  map.entities.flatMap fun e => List.replicate (ids.count e.sessionid) e.castTransformEntityStruct

theorem mem_transformed {map : EntityMap F} {ids : List UInt32} {t : TransformEntityStruct F} :
    t ∈ transformed map ids ↔
      ∃ e ∈ map.entities, e.sessionid ∈ ids ∧ t = e.castTransformEntityStruct := by
  simp [transformed, List.mem_flatMap, List.mem_replicate, List.count_eq_zero]

variable [FloatBits F] (littleEndian : Bool)

/-- A client that receives the packet, with no older record for the id, replays the path from its
next tick on. -/
def Follows (sessionid : UInt32) (path : List (TransformStruct F)) (packet : List UInt8) : Prop :=
  ∀ (suffix : List UInt8) (called : List ReceiveFunction) (q : Player F),
    (∀ t ∈ q.user.transformEntityQueue, t.sessionid ≠ sessionid) →
    ∃ c, receivePacket littleEndian ⟨packet ++ suffix, called, q⟩ id id = .ok c ∧
      c.unread = suffix ∧ c.called = called ++ [.TransformEntity] ∧
      ∀ (w : World F) (move : Entity F → Transform F × RemoteController F),
        w.user = c.player.user → (World.remote sessionid w.objects).isSome →
        ∃ obj controls, World.remote sessionid (w.updateRemoteControls move).objects = some obj ∧
          obj.remoteControls = some controls ∧ controls.Replays path

section Packets

variable [LawfulFloatBits F]

theorem follows_frame {frame : Frame} {sessionid : UInt32} {path : List (TransformStruct F)}
    {records : List (TransformEntityStruct F)}
    (hopcode : receiveMap frame.opcode = some .TransformEntity)
    (hbody : frame.body = Starfall.Buffer.writeTransformEntities records)
    (hrecord : ∃ t ∈ records, t.sessionid = sessionid)
    (hpath : ∀ t ∈ records, t.sessionid = sessionid → t.path = path) :
    Follows littleEndian sessionid path frame.bytes := by
  intro suffix called q hfresh
  have fits := frame.fits
  rw [hbody] at fits
  have reads := reads_transformEntities littleEndian q fits
  rw [← hbody] at reads
  refine ⟨_, receivePacket_frame littleEndian hopcode reads suffix called, rfl, rfl, ?_⟩
  intro w move huser hremote
  have hqueue : w.user.transformEntityQueue = q.user.transformEntityQueue ++ records := by
    rw [huser]
  apply World.remote_replays move hremote
  · obtain ⟨t, ht, hid⟩ := hrecord
    exact ⟨t, by rw [hqueue]; exact List.mem_append_right _ ht, hid⟩
  · intro t ht hid
    rw [hqueue] at ht
    rcases List.mem_append.mp ht with ht | ht
    · exact absurd hid (hfresh t ht)
    · exact hpath t ht hid

variable [Add F] [Sub F] [Mul F] [LE F] [DecidableLE F]

/-- The server files the path of the packet with the player's entity. -/
theorem transformData_delivered {p p' : Player F}
    (h : enqueue littleEndian p .TransformData = some p') (server : Server F) (s : Session F) :
    ∃ packet, p'.sendQueue = p.sendQueue ++ [packet] ∧
      deliver server s packet = .ok (.returned true, Session.flush { s with
        player := { s.player with
          pEntity := transform s.player.pEntity p.transformPlayerStruct.path } }) := by
  have room := enqueue_room littleEndian h
  rw [enqueue_defined littleEndian room] at h
  cases h
  have fits : (body .TransformData p).length < 2 ^ 31 := by omega
  have hlen := fits
  simp only [body, Starfall.Buffer.writeTransformStructs_length] at hlen
  have hreads : Reads Starfall.Buffer.readTransformStructs (body .TransformData p)
      p.transformPlayerStruct.path := Starfall.Buffer.reads_transformStructs (by omega)
  obtain ⟨pathDump, hread⟩ := readPacket_body hreads fits
  refine ⟨_, rfl, deliver_returned rfl fun dump => ?_⟩
  rw [call, Receive.transformData, Starfall.Buffer.readTransformsPacket]
  exact except_bind_of_ok hread

omit [LawfulFloatBits F] [Add F] [Sub F] [Mul F] [LE F] [DecidableLE F] in
theorem sendObjects_last {p : Starfall.Player F} {records : List (TransformEntityStruct F)}
    (hrecords : p.transformEntityQueue = records)
    (fits : (Starfall.Buffer.writeTransformEntities records).length < 2 ^ 31) :
    ∃ p', sendObjects p = (true, p') ∧
      p'.sendQueue.getLast? = some (⟨-1, 0x10000004, -1, _, fits⟩ : Frame).bytes := by
  subst hrecords
  exact ⟨_, rfl, List.getLast?_concat⟩

omit [LawfulFloatBits F] in
theorem objectsData_last (server : Server F) {s : Session F} {buffer c : Starfall.Buffer}
    {objects : ObjectsStruct F} (settled : s.player.Settled)
    (h : Starfall.Buffer.readObjectsStruct buffer = .ok (objects, c))
    (fits : (Starfall.Buffer.writeTransformEntities
      (transformed server.entities objects.ids)).length < 2 ^ 31) :
    ∃ s', (∀ head, Receive.objectsData server s buffer head = .ok (.returned true, s')) ∧
      s'.player.sendQueue.getLast? = some (⟨-1, 0x10000004, -1, _, fits⟩ : Frame).bytes := by
  obtain ⟨p', hsent, hlast⟩ :=
    sendObjects_last (transforms_round settled server.entities objects) fits
  refine ⟨{ s with player := p'.clearAll }, fun head => ?_, hlast⟩
  rw [Receive.objectsData, except_bind_of_ok h]
  dsimp only
  rw [hsent]
  rfl

/-- The server answers with the records that it files for the ids. -/
theorem objectsData_delivered {q q' : Player F}
    (h : enqueue littleEndian q .ObjectsData = some q') (server : Server F) {s : Session F}
    (settled : s.player.Settled)
    (fits : (Starfall.Buffer.writeTransformEntities
      (transformed server.entities q.objectsQueue)).length < 2 ^ 31) :
    ∃ packet s', q'.sendQueue = q.sendQueue ++ [packet] ∧
      deliver server s packet = .ok (.returned true, s') ∧
      s'.sent.getLast? = some (⟨-1, 0x10000004, -1, _, fits⟩ : Frame).bytes := by
  have room := enqueue_room littleEndian h
  rw [enqueue_defined littleEndian room] at h
  cases h
  have hlen := room
  simp only [body, Starfall.Buffer.writeObjectsStruct, List.length_append,
    Starfall.Buffer.writeIds_length] at hlen
  have hreads : Reads Starfall.Buffer.readObjectsStruct (body .ObjectsData q)
      ⟨q.user.checkObjectsState, q.user.checkObjectsRadius, q.objectsQueue⟩ :=
    Starfall.Buffer.reads_objectsStruct (by dsimp only; omega)
  have hread := start_all hreads
  obtain ⟨s', hcall, hlast⟩ := objectsData_last server settled hread fits
  refine ⟨_, s'.flush, rfl, deliver_returned rfl fun dump => ?_, ?_⟩
  · exact hcall ⟨Frame.head ⟨-1, sendMap .ObjectsData, -1, body .ObjectsData q, by omega⟩, dump⟩
  · rw [Session.flush, List.getLast?_append, hlast]
    rfl

/-- A path that a client sends becomes that of its entity on the server, whose transform is then
that of the last node, and stays as it is when there is none.  Every client that lists the entity
while it is filed so gets a packet of transforms, when an `int` can express the size of the packet,
and replays the path from it, and then no more. -/
theorem path_replayed {p p' : Player F} (sent : enqueue littleEndian p .TransformData = some p')
    (server : Server F) (s : Session F) :
    ∃ packet s', p'.sendQueue = p.sendQueue ++ [packet] ∧
      deliver server s packet = .ok (.returned true, s') ∧
      s'.player.pEntity = { s.player.pEntity with
        toTransform := (p.transformPlayerStruct.path.getLast?.map (·.toTransform)).getD
          s.player.pEntity.toTransform
        path := p.transformPlayerStruct.path } ∧
      ∀ (server' : Server F) (rows : List LoginRow) (as : List (Arrival F)) (t : Session F)
        (q q' : Player F), (connection rows).Run as t →
        s'.player.pEntity ∈ server'.entities.entities →
        s'.player.pEntity.sessionid ∈ q.objectsQueue →
        enqueue littleEndian q .ObjectsData = some q' →
        (Starfall.Buffer.writeTransformEntities
          (transformed server'.entities q.objectsQueue)).length < 2 ^ 31 →
        ∃ request t' transforms, q'.sendQueue = q.sendQueue ++ [request] ∧
          deliver server' t request = .ok (.returned true, t') ∧
          t'.sent.getLast? = some transforms ∧
          Follows littleEndian s'.player.pEntity.sessionid p.transformPlayerStruct.path
            transforms := by
  obtain ⟨packet, hpacket, hdelivered⟩ := transformData_delivered littleEndian sent server s
  have walked := transform_eq s.player.pEntity p.transformPlayerStruct.path
  rw [walked] at hdelivered
  refine ⟨packet, _, hpacket, hdelivered, rfl, ?_⟩
  intro server' rows as t q q' run filed listed asked fits
  obtain ⟨request, t', hrequest, hanswered, hlast⟩ :=
    objectsData_delivered littleEndian asked server' (connection_settled run) fits
  refine ⟨request, t', _, hrequest, hanswered, hlast, follows_frame littleEndian rfl rfl ?_ ?_⟩
  · exact ⟨_, mem_transformed.mpr ⟨_, filed, listed, rfl⟩, rfl⟩
  · intro record hrecord hid
    obtain ⟨e, he, -, rfl⟩ := mem_transformed.mp hrecord
    have hfiled := EntityMap.find_of_mem filed
    rw [show _ = e.sessionid from hid.symm, EntityMap.find_of_mem he] at hfiled
    cases hfiled
    rfl

end Packets

/-- Two steps to the right. -/
def twoSteps : List (TransformStruct UInt32) :=
  [⟨⟨⟨1, 0, 0⟩, ⟨0, 0, 0, 1⟩⟩, 1⟩, ⟨⟨⟨2, 0, 0⟩, ⟨0, 0, 0, 1⟩⟩, 1⟩]

def walker : Player UInt32 := { loadingPlayer with transformPlayerStruct := ⟨0, twoSteps⟩ }

def onlooker : Player UInt32 := { loadingPlayer with objectsQueue := [1] }

theorem twoSteps_replayed : ∃ (server : Server UInt32) (packet request transforms : List UInt8)
    (s' t' : Session UInt32),
    deliver server (.open ⟨⟨0, 0, 0⟩, ⟨0, 0, 0, 1⟩⟩ 1) packet = .ok (.returned true, s') ∧
      s'.player.pEntity.position = ⟨2, 0, 0⟩ ∧
      deliver { server with entities := ⟨[s'.player.pEntity], List.pairwise_singleton _ _⟩ }
        (.open ⟨⟨0, 0, 0⟩, ⟨0, 0, 0, 1⟩⟩ 2) request = .ok (.returned true, t') ∧
      t'.sent.getLast? = some transforms ∧ Follows true 1 twoSteps transforms := by
  have walked : ∃ p', enqueue true walker .TransformData = some p' :=
    ⟨_, enqueue_defined true (by decide)⟩
  have asked : ∃ q', enqueue true onlooker .ObjectsData = some q' :=
    ⟨_, enqueue_defined true (by decide)⟩
  obtain ⟨p', hwalked⟩ := walked
  obtain ⟨q', hasked⟩ := asked
  obtain ⟨packet, s', -, hdelivered, hentity, hfollows⟩ := path_replayed true hwalked
    ⟨[], ⟨[], List.nodup_nil⟩, fun _ => .threw⟩ (.open ⟨⟨0, 0, 0⟩, ⟨0, 0, 0, 1⟩⟩ 1)
  have run : (connection []).Run [] (Session.open (F := UInt32) ⟨⟨0, 0, 0⟩, ⟨0, 0, 0, 1⟩⟩ 2) :=
    .nil ⟨_, _, rfl⟩
  have hid : s'.player.pEntity.sessionid = 1 := by rw [hentity]; rfl
  obtain ⟨request, t', transforms, -, hanswered, hlast, hpath⟩ :=
    hfollows ⟨[], ⟨[s'.player.pEntity], List.pairwise_singleton _ _⟩, fun _ => .threw⟩ [] [] _
      onlooker q' run (List.mem_singleton_self _) (by rw [hid]; decide) hasked
      (by rw [hentity]; decide)
  rw [hid] at hpath
  exact ⟨_, packet, request, transforms, s', t', hdelivered, by rw [hentity]; rfl, hanswered,
    hlast, hpath⟩

end GameClient

end Starfall.Unity
