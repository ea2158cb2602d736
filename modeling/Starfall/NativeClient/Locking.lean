import Starfall.NativeClient.Client
import Starfall.ProofKit.Locks

/-! The mutexes of the native client, as `Client.cpp` and `WorldScene.cpp` lock them.  `Client::Get`
locks the list of the clients, and the main thread calls it with the player locked.  The network
thread locks the player with the list locked.  So the two threads can wait for each other, and do so
only when they come to do this at the same time. -/

namespace Starfall.NativeClient.Locking

open ProofKit.Runs ProofKit.Locks

inductive Mutex
  /-- `Client::mutex`. -/
  | client
  /-- `Client::ClientsMutex`. -/
  | clients
  /-- The mutex of the player's entity. -/
  | player
  deriving DecidableEq, Repr

inductive Thread
  | network
  | main
  deriving DecidableEq, Repr

abbrev Code := List (Op Mutex)

def setLoginStruct : Code := guarded .player []

def enqueue : Code := guarded .player []

def loginData : Code := guarded .player enqueue

/-- `tryLogin`, when the player is not logged in or when it is. -/
def tryLogin (notLoggedIn : Bool) : Code :=
  guarded .player (if notLoggedIn then setLoginStruct ++ loginData else [])

def isLoggedIn : Code := guarded .player []

def get : Code := guarded .clients []

/-- `(*receiveFunction)(bodyBuffer, head, (*it)->pPlayer)`. -/
def call : ReceiveFunction → Code
  | .LoginReply => guarded .player []
  | .ObjectsReply => guarded .player []
  | .TransformEntityData => []

/-- The part of an iteration of `run` under `Client::ClientsMutex`. -/
def dispatch (receiveFunction : ReceiveFunction) : Code := guarded .clients (call receiveFunction)

/-- An iteration of `run`, when the client is connected and when it is not.  It comes to a receive
function when it has received a packet with an opcode of the map. -/
def run (isConnected : Bool) (received : Option ReceiveFunction) : Code :=
  guarded .client (if isConnected then
    (match received with
      | some receiveFunction => dispatch receiveFunction
      | none => []) ++ guarded .player []
  else [])

/-- `checkPlayer`, with what `isLoggedIn` returns. -/
def checkPlayer (loggedIn : Bool) : Code :=
  get ++ (isLoggedIn ++ (if loggedIn then get ++ guarded .player get else []))

/-- The body of the loop over the creates for an entity that is not in the map, with what
`isLoggedIn` returns and with whether the entity is the player's. -/
def createEntity (loggedIn own : Bool) : Code :=
  get ++ guarded .player (get ++ (isLoggedIn ++ (if loggedIn then get ++ (if own then get else [])
    else [])))

/-- `update`, when the interval has passed and when it has not, with the creates for entities that
are not in the map. -/
def update (elapsed : Bool) (creates : List (Bool × Bool)) : Code :=
  if elapsed then
    get ++ (guarded .player [] ++ creates.flatMap fun (loggedIn, own) => createEntity loggedIn own)
  else []

/-- What each thread runs, over and over. -/
inductive Routine : Thread → Code → Prop
  | run (isConnected : Bool) (received : Option ReceiveFunction) :
    Routine .network (run isConnected received)
  | update (elapsed : Bool) (creates : List (Bool × Bool)) : Routine .main (update elapsed creates)
  | checkPlayer (loggedIn : Bool) : Routine .main (checkPlayer loggedIn)
  | get : Routine .main get
  | tryLogin (notLoggedIn : Bool) : Routine .main (tryLogin notLoggedIn)
  | isLoggedIn : Routine .main isLoggedIn

/-- The mutexes that each thread locks inside of others. -/
def before : Thread → Mutex → Mutex → Prop
  | .network, .client, .clients => True
  | .network, .client, .player => True
  | .network, .clients, .player => True
  | .main, .player, .clients => True
  | _, _, _ => False

/-- The main thread holds at most the player. -/
def OnlyPlayer (held : Mutex → Nat) : Prop := held .client = 0 ∧ held .clients = 0

theorem keeps_get {held : Mutex → Nat} (h : OnlyPlayer held) : Keeps (before .main) held get := by
  refine Keeps.guarded ?_ Keeps.nil
  intro k hk
  cases k with
  | client => exact absurd h.1 (Nat.ne_of_gt hk)
  | clients => exact .inl rfl
  | player => exact .inr trivial

theorem keeps_player {held : Mutex → Nat} {body : Code} (h : OnlyPlayer held)
    (inner : ∀ held, OnlyPlayer held → Keeps (before .main) held body) :
    Keeps (before .main) held (guarded .player body) := by
  refine Keeps.guarded ?_ (inner _ h)
  intro k hk
  cases k with
  | client => exact absurd h.1 (Nat.ne_of_gt hk)
  | clients => exact absurd h.2 (Nat.ne_of_gt hk)
  | player => exact .inl rfl

theorem keeps_isLoggedIn {held : Mutex → Nat} (h : OnlyPlayer held) :
    Keeps (before .main) held isLoggedIn := keeps_player h fun _ _ => Keeps.nil

theorem keeps_tryLogin {held : Mutex → Nat} (notLoggedIn : Bool) (h : OnlyPlayer held) :
    Keeps (before .main) held (tryLogin notLoggedIn) := by
  refine keeps_player h fun held h => ?_
  cases notLoggedIn with
  | false => exact Keeps.nil
  | true =>
    have login : Keeps (before .main) held setLoginStruct := keeps_player h fun _ _ => Keeps.nil
    have data : Keeps (before .main) held loginData :=
      keeps_player h fun _ h => keeps_player h fun _ _ => Keeps.nil
    exact login.append data

theorem keeps_checkPlayer {held : Mutex → Nat} (loggedIn : Bool) (h : OnlyPlayer held) :
    Keeps (before .main) held (checkPlayer loggedIn) := by
  refine (keeps_get h).append ((keeps_isLoggedIn h).append ?_)
  cases loggedIn with
  | false => exact Keeps.nil
  | true => exact (keeps_get h).append (keeps_player h fun _ h => keeps_get h)

theorem keeps_createEntity {held : Mutex → Nat} (loggedIn own : Bool) (h : OnlyPlayer held) :
    Keeps (before .main) held (createEntity loggedIn own) := by
  refine (keeps_get h).append (keeps_player h fun held h => ?_)
  refine (keeps_get h).append ((keeps_isLoggedIn h).append ?_)
  cases loggedIn with
  | false => exact Keeps.nil
  | true =>
    refine (keeps_get h).append ?_
    cases own with
    | false => exact Keeps.nil
    | true => exact keeps_get h

theorem keeps_update {held : Mutex → Nat} (elapsed : Bool) (creates : List (Bool × Bool))
    (h : OnlyPlayer held) : Keeps (before .main) held (update elapsed creates) := by
  cases elapsed with
  | false => exact Keeps.nil
  | true =>
    have copy : Keeps (before .main) held (guarded .player []) :=
      keeps_player h fun _ _ => Keeps.nil
    exact (keeps_get h).append (copy.append
      (Keeps.flatMap (fun (loggedIn, own) => keeps_createEntity loggedIn own h) creates))

/-- Inside of the other mutexes, the network thread locks the player. -/
theorem keeps_network_player {held : Mutex → Nat} :
    Keeps (before .network) held (guarded .player []) := by
  refine Keeps.guarded ?_ Keeps.nil
  intro k hk
  cases k with
  | client => exact .inr trivial
  | clients => exact .inr trivial
  | player => exact .inl rfl

theorem keeps_call {held : Mutex → Nat} (receiveFunction : ReceiveFunction) :
    Keeps (before .network) held (call receiveFunction) := by
  cases receiveFunction with
  | LoginReply => exact keeps_network_player
  | ObjectsReply => exact keeps_network_player
  | TransformEntityData => exact Keeps.nil

theorem keeps_dispatch {held : Mutex → Nat} (receiveFunction : ReceiveFunction)
    (h : held .player = 0) : Keeps (before .network) held (dispatch receiveFunction) := by
  refine Keeps.guarded ?_ (keeps_call receiveFunction)
  intro k hk
  cases k with
  | client => exact .inr trivial
  | clients => exact .inl rfl
  | player => exact absurd h (Nat.ne_of_gt hk)

theorem keeps_run (isConnected : Bool) (received : Option ReceiveFunction) :
    Keeps (before .network) (fun _ => 0) (run isConnected received) := by
  refine Keeps.guarded (fun k hk => absurd hk (Nat.lt_irrefl 0)) ?_
  cases isConnected with
  | false => exact Keeps.nil
  | true =>
    refine Keeps.append ?_ keeps_network_player
    cases received with
    | none => exact Keeps.nil
    | some receiveFunction => exact keeps_dispatch receiveFunction rfl

theorem routine_legal (t : Thread) (ops : Code) (h : Routine t ops) :
    Legal (before t) (fun _ => 0) ops := by
  have free : OnlyPlayer fun _ => 0 := ⟨rfl, rfl⟩
  cases h with
  | run isConnected received => exact (keeps_run isConnected received).legal
  | update elapsed creates => exact (keeps_update elapsed creates free).legal
  | checkPlayer loggedIn => exact (keeps_checkPlayer loggedIn free).legal
  | get => exact (keeps_get free).legal
  | tryLogin notLoggedIn => exact (keeps_tryLogin notLoggedIn free).legal
  | isLoggedIn => exact (keeps_isLoggedIn free).legal

/-- The network thread does not lock the list for a receive function that locks the player while the
main thread has the player locked and a call of `Get` before it unlocks it, nor the other way
round. -/
def Apart (s : State Thread Mutex) (e : Event Thread Mutex) : Prop :=
  ProofKit.Locks.Apart .main .network .player .clients s e

theorem before_main {k l : Mutex} (h : before .main k l) : k = .player ∧ l = .clients := by
  cases k with
  | client => cases l <;> exact h.elim
  | clients => cases l <;> exact h.elim
  | player =>
    cases l with
    | clients => exact ⟨rfl, rfl⟩
    | client => exact h.elim
    | player => exact h.elim

/-- When the threads wait for each other, the main thread has the player and waits for the list, and
the network thread has the list and waits for the player. -/
theorem deadlocked_windows {es : List (Event Thread Mutex)} {s : State Thread Mutex}
    (run : (threads Routine).Run es s) (h : Deadlocked s .main .network) :
    Window s .main .player .clients ∧ Window s .network .clients .player := by
  have disciplined : Disciplined before s := threads_disciplined routine_legal run
  obtain ⟨⟨l, main⟩, k, network⟩ := h
  have hplayer : 0 < s.held .main k := network.elim fun _ h => h.2
  have hclients : 0 < s.held .network l := main.elim fun _ h => h.2
  have order : before .main k l := disciplined.waits (by decide) main hplayer
  obtain ⟨rfl, rfl⟩ := before_main order
  exact ⟨main.window hplayer, network.window hclients⟩

theorem before_network {m : Mutex} (h : before .network .clients m) : m = .player := by
  cases m with
  | player => rfl
  | client => exact h.elim
  | clients => exact h.elim

/-- In every run whose steps keep the two windows apart, the threads never wait for each other.
After the first step that does not, they can come to do so. -/
theorem not_deadlocked (es : List (Event Thread Mutex)) (s : State Thread Mutex)
    (run : ((threads Routine).restrict Apart).Run es s) :
    ¬Deadlocked s .main .network ∧ ∀ e s', (threads Routine).step s e s' → ¬Apart s e →
      ∃ es' s'', (threads Routine).Run (es ++ [e] ++ es') s'' ∧ Deadlocked s'' .main .network := by
  have hne : Thread.main ≠ .network := by decide
  refine ⟨fun h => ?_, fun e s' step overlap => ?_⟩
  · exact windows_apart hne routine_legal run (deadlocked_windows run.of_restrict h)
  · have opened : Window s' .main .player .clients ∧ Window s' .network .clients .player :=
      Classical.byContradiction fun closed => overlap (apart_of_closed hne step closed)
    exact windows_deadlock routine_legal hne (fun m h => (before_main h).2)
      (fun m h => before_network h) (run.of_restrict.snoc step) opened.1 opened.2

def idle : State Thread Mutex := ⟨fun _ => [], fun _ _ => 0⟩

/-- A step of the main thread when the network thread holds nothing. -/
theorem main_acquires {s : State Thread Mutex} {l : Mutex} {ops : Code}
    (hcode : s.code .main = .acquire l :: ops) (free : s.held .network l = 0) :
    Step Routine s (.act .main) (s.after .main ops l (s.held .main l + 1)) := by
  refine .acquire hcode fun u hu => ?_
  cases u with
  | network => exact free
  | main => exact absurd rfl hu

theorem network_acquires {s : State Thread Mutex} {l : Mutex} {ops : Code}
    (hcode : s.code .network = .acquire l :: ops) (free : s.held .main l = 0) :
    Step Routine s (.act .network) (s.after .network ops l (s.held .network l + 1)) := by
  refine .acquire hcode fun u hu => ?_
  cases u with
  | network => exact absurd rfl hu
  | main => exact free

theorem apart_call (s : State Thread Mutex) (t : Thread) (ops : Code) : Apart s (.call t ops) := by
  constructor
  · intro h
    cases h
  · intro h
    cases h

theorem apart_network {s : State Thread Mutex}
    (h : ∀ ops, s.code .network = .acquire .clients :: ops → ¬Window s .main .player .clients) :
    Apart s (.act .network) := by
  refine ⟨fun hmain => ?_, fun _ ops hcode _ _ => h ops hcode⟩
  cases hmain

/-- The main thread has the player for `isLoggedIn`, and the network thread has the list and waits
for the player. -/
theorem isLoggedIn_not_deadlocked : ∃ es s, ((threads Routine).restrict Apart).Run es s ∧
    0 < s.held Thread.main Mutex.player ∧ Waits s .network .main .player ∧
      ¬Deadlocked s .main .network := by
  have start : ((threads Routine).restrict Apart).Run [] idle := .nil rfl
  have calls : Step Routine idle (.call .main isLoggedIn) _ := .call rfl .isLoggedIn
  have s1 := start.snoc ⟨apart_call _ _ _, calls⟩
  have apart1 : Apart { idle with code := Function.update idle.code .main isLoggedIn }
      (.act .main) := by
    refine ⟨fun _ ops hcode _ reaches => ?_, fun hnetwork => ?_⟩
    · cases hcode
      exact reaches.elim
    · cases hnetwork
  have s2 := s1.snoc ⟨apart1, main_acquires rfl rfl⟩
  have s3 := s2.snoc ⟨apart_call _ _ _,
    Step.call (t := Thread.network) rfl (.run true (some .LoginReply))⟩
  have s4 := s3.snoc ⟨apart_network fun _ hcode => (by cases hcode), network_acquires rfl rfl⟩
  have s5 := s4.snoc ⟨apart_network fun _ _ window => window.elim, network_acquires rfl rfl⟩
  exact ⟨_, _, s5, Nat.one_pos, ⟨_, rfl, Nat.one_pos⟩, (not_deadlocked _ _ s5).1⟩

/-- The main thread checks the player, and the network thread receives a login reply. -/
theorem checkPlayer_deadlocked :
    ∃ es s, (threads Routine).Run es s ∧ Deadlocked s .main .network := by
  have start : (threads Routine).Run [] idle := .nil rfl
  have calls : Step Routine idle (.call .main (checkPlayer true)) _ := .call rfl (.checkPlayer true)
  have s1 := start.snoc calls
  have s2 := s1.snoc (main_acquires rfl rfl)
  have s3 := s2.snoc (Step.release (t := Thread.main) rfl)
  have s4 := s3.snoc (main_acquires rfl rfl)
  have s5 := s4.snoc (Step.release (t := Thread.main) rfl)
  have s6 := s5.snoc (main_acquires rfl rfl)
  have s7 := s6.snoc (Step.release (t := Thread.main) rfl)
  have s8 := s7.snoc (main_acquires rfl rfl)
  have s9 := s8.snoc (Step.call (t := Thread.network) rfl (.run true (some .LoginReply)))
  have s10 := s9.snoc (network_acquires rfl rfl)
  have s11 := s10.snoc (network_acquires rfl rfl)
  exact ⟨_, _, s11, ⟨.clients, _, rfl, Nat.one_pos⟩, .player, _, rfl, Nat.one_pos⟩

end Starfall.NativeClient.Locking
