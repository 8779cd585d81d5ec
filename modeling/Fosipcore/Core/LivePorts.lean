import Fosipcore.Library.Machine
import Fosipcore.Video.Ports

/-!
# Live ports of concurrent sessions

Sessions share one port pool. A login allocates a port and spawns the listener task that binds it;
the port becomes the session's live port when the login's action is applied. A logout or a
disconnect takes the live port, aborts the listener and releases the port. A listener task whose
bind fails releases the port as well, and the session does not notice. A listener task that is
aborted before it serves may be past its last point of cancellation, and still do so later.

## Main definitions

* `PortSession`, `Listener`, `LivePorts`: the sessions, their listener tasks, and the pool
* `LivePorts.step`, `LivePorts.StepTo`: logins, bind outcomes, and the steps of a teardown
* `LivePorts.Exclusive`: live ports are distinct and in use
* `LivePorts.releasesOnce`: a listener releases only ports that a teardown has taken

## Main results

* `LivePorts.Inv.step`, `LivePorts.Inv.exclusive`: live ports stay exclusively owned in steps that
  release once
-/

namespace Fosipcore

open Machine

/-- What a connection is in the middle of: a login that has allocated a port and spawned its
listener, or a teardown that has taken the port and is still to abort the listener, or to release
the port. -/
inductive Busy where
  | login (port : UInt16) (listener : ℕ)
  | teardown (port : UInt16)
  | release (port : UInt16)
  deriving DecidableEq

/-- The video plane of a session: its live port, its listener task, and what its connection is in
the middle of. -/
structure PortSession where
  livePort : Option UInt16
  videoListener : Option ℕ
  busy : Option Busy
  deriving DecidableEq

/-- A listener task: about to bind its port, serving, about to release the port after a failed
bind, aborted before it has served (and perhaps too late to keep it from the release), or ended. -/
inductive ListenerState where
  | starting
  | serving
  | failed
  | aborted
  | ended
  deriving DecidableEq

/-- The state of a listener task that is aborted. -/
def ListenerState.abort : ListenerState → ListenerState
  | .starting | .failed | .aborted => .aborted
  | .serving | .ended => .ended

structure Listener where
  port : UInt16
  state : ListenerState
  deriving DecidableEq

structure LivePorts where
  pool : PortPool
  sessions : List PortSession
  listeners : List Listener
  deriving DecidableEq

namespace LivePorts

/-- No session yet. -/
def new (pool : PortPool) : LivePorts := ⟨pool, [], []⟩

/-- What can happen: a connection, a login with the outcomes of its probes, the end of its
handling, the steps of a teardown, and those of a listener task. -/
inductive Event where
  | connect
  | login (i : ℕ) (probe : ℕ → UInt16 → Bool)
  | applyLogin (i : ℕ)
  | teardown (i : ℕ)
  | abortListener (i : ℕ)
  | releasePort (i : ℕ)
  | bindOk (l : ℕ)
  | bindFail (l : ℕ)
  | releaseFailed (l : ℕ)

/-- The session `i` is replaced. -/
def setSession (s : LivePorts) (i : ℕ) (session : PortSession) : LivePorts :=
  { s with sessions := s.sessions.set i session }

/-- The state of the listener `l` is changed. -/
def modifyListener (s : LivePorts) (l : ℕ) (f : ListenerState → ListenerState) : LivePorts :=
  { s with listeners :=
      s.listeners.modify l fun listener => { listener with state := f listener.state } }

/-- The state of the listener `l` is replaced. -/
def setListener (s : LivePorts) (l : ℕ) (state : ListenerState) : LivePorts :=
  s.modifyListener l fun _ => state

/-- `ensure_session_video` of the session `i`: a session with a live port keeps it; otherwise a
port is allocated and a listener spawned, or the login is refused. -/
def login (s : LivePorts) (i : ℕ) (session : PortSession) (probe : ℕ → UInt16 → Bool) :
    LivePorts :=
  match session.livePort with
  | some _ => s
  | none =>
    match s.pool.alloc probe with
    | (none, pool) => { s with pool := pool }
    | (some port, pool) =>
      ⟨pool, s.sessions.set i { session with busy := some (.login port s.listeners.length) },
        s.listeners ++ [⟨port, .starting⟩]⟩

/-- Abort a listener task, if the session has one. -/
def abort (s : LivePorts) : Option ℕ → LivePorts
  | none => s
  | some l => s.modifyListener l .abort

/-- What a step of the session's own connection leads to. -/
def sessionStep (s : LivePorts) (i : ℕ) (session : PortSession) : Event → Option LivePorts
  | .login _ probe => if session.busy.isSome then none else some (s.login i session probe)
  | .applyLogin _ =>
    match session.busy with
    | some (.login port l) => some (s.setSession i ⟨some port, some l, none⟩)
    | _ => none
  | .teardown _ =>
    if session.busy.isSome then none
    else
      match session.livePort with
      | none => some s
      | some port => some (s.setSession i ⟨none, session.videoListener, some (.teardown port)⟩)
  | .abortListener _ =>
    match session.busy with
    | some (.teardown port) =>
      some ((s.abort session.videoListener).setSession i ⟨none, none, some (.release port)⟩)
    | _ => none
  | .releasePort _ =>
    match session.busy with
    | some (.release port) =>
      some { s.setSession i { session with busy := none } with pool := s.pool.release port }
    | _ => none
  | _ => none

/-- What a step of a listener task leads to. -/
def listenerStep (s : LivePorts) (l : ℕ) (listener : Listener) : Event → Option LivePorts
  | .bindOk _ => if listener.state = .starting then some (s.setListener l .serving) else none
  | .bindFail _ => if listener.state = .starting then some (s.setListener l .failed) else none
  | .releaseFailed _ =>
    if listener.state = .failed ∨ listener.state = .aborted then
      some { s.setListener l .ended with pool := s.pool.release listener.port }
    else none
  | _ => none

def step (s : LivePorts) (e : Event) : Option LivePorts :=
  match e with
  | .connect => some { s with sessions := s.sessions ++ [⟨none, none, none⟩] }
  | .login i _ | .applyLogin i | .teardown i | .abortListener i | .releasePort i =>
    s.sessions[i]?.bind fun session => s.sessionStep i session e
  | .bindOk l | .bindFail l | .releaseFailed l =>
    s.listeners[l]?.bind fun listener => s.listenerStep l listener e

/-- What a step does. The sessions and the listeners that it is about are there. -/
inductive StepTo (s : LivePorts) : Event → LivePorts → Prop
  | connect : StepTo s .connect { s with sessions := s.sessions ++ [⟨none, none, none⟩] }
  | login (i : ℕ) (session : PortSession) (probe : ℕ → UInt16 → Bool)
      (hi : s.sessions[i]? = some session) (hidle : session.busy = none) :
      StepTo s (.login i probe) (s.login i session probe)
  | applyLogin (i : ℕ) (session : PortSession) (port : UInt16) (l : ℕ)
      (hi : s.sessions[i]? = some session) (hbusy : session.busy = some (.login port l)) :
      StepTo s (.applyLogin i) (s.setSession i ⟨some port, some l, none⟩)
  | idle (i : ℕ) (session : PortSession) (hi : s.sessions[i]? = some session)
      (hidle : session.busy = none) (hlive : session.livePort = none) : StepTo s (.teardown i) s
  | teardown (i : ℕ) (session : PortSession) (port : UInt16) (hi : s.sessions[i]? = some session)
      (hidle : session.busy = none) (hlive : session.livePort = some port) :
      StepTo s (.teardown i) (s.setSession i ⟨none, session.videoListener, some (.teardown port)⟩)
  | abortListener (i : ℕ) (session : PortSession) (port : UInt16) (listeners : List Listener)
      (hi : s.sessions[i]? = some session) (hbusy : session.busy = some (.teardown port))
      (hlisteners : s.abort session.videoListener = { s with listeners := listeners }) :
      StepTo s (.abortListener i)
        ⟨s.pool, s.sessions.set i ⟨none, none, some (.release port)⟩, listeners⟩
  | releasePort (i : ℕ) (session : PortSession) (port : UInt16)
      (hi : s.sessions[i]? = some session) (hbusy : session.busy = some (.release port)) :
      StepTo s (.releasePort i)
        { s.setSession i { session with busy := none } with pool := s.pool.release port }
  | bind (l : ℕ) (listener : Listener) (e : Event) (state : ListenerState)
      (he : e = .bindOk l ∧ state = .serving ∨ e = .bindFail l ∧ state = .failed)
      (hl : s.listeners[l]? = some listener) (hstarting : listener.state = .starting) :
      StepTo s e (s.setListener l state)
  | releaseFailed (l : ℕ) (listener : Listener) (hl : s.listeners[l]? = some listener)
      (hstate : listener.state = .failed ∨ listener.state = .aborted) :
      StepTo s (.releaseFailed l)
        { s.setListener l .ended with pool := s.pool.release listener.port }

/-- An abort changes the listeners only. -/
theorem abort_eq (s : LivePorts) (l? : Option ℕ) :
    ∃ listeners, s.abort l? = { s with listeners := listeners } := by
  cases l? with
  | none => exact ⟨s.listeners, rfl⟩
  | some l => exact ⟨_, rfl⟩

theorem step_cases {s s' : LivePorts} {e : Event} (h : s.step e = some s') : StepTo s e s' := by
  cases e with
  | connect =>
    obtain rfl := Option.some.inj h
    exact .connect
  | login i probe =>
    obtain ⟨session, hi, h⟩ := Option.bind_eq_some_iff.mp h
    rw [sessionStep] at h
    split_ifs at h with hbusy
    obtain rfl := Option.some.inj h
    exact .login i session probe hi (by simpa using hbusy)
  | applyLogin i =>
    obtain ⟨session, hi, h⟩ := Option.bind_eq_some_iff.mp h
    rw [sessionStep] at h
    split at h
    · rename_i port l hbusy
      obtain rfl := Option.some.inj h
      exact .applyLogin i session port l hi hbusy
    · cases h
  | teardown i =>
    obtain ⟨session, hi, h⟩ := Option.bind_eq_some_iff.mp h
    rw [sessionStep] at h
    split_ifs at h with hbusy
    have hidle : session.busy = none := by simpa using hbusy
    split at h
    · rename_i hlive
      obtain rfl := Option.some.inj h
      exact .idle i session hi hidle hlive
    · rename_i port hlive
      obtain rfl := Option.some.inj h
      exact .teardown i session port hi hidle hlive
  | abortListener i =>
    obtain ⟨session, hi, h⟩ := Option.bind_eq_some_iff.mp h
    rw [sessionStep] at h
    split at h
    · rename_i port hbusy
      obtain ⟨listeners, hlisteners⟩ := s.abort_eq session.videoListener
      rw [hlisteners] at h
      obtain rfl := Option.some.inj h
      exact .abortListener i session port listeners hi hbusy hlisteners
    · cases h
  | releasePort i =>
    obtain ⟨session, hi, h⟩ := Option.bind_eq_some_iff.mp h
    rw [sessionStep] at h
    split at h
    · rename_i port hbusy
      obtain rfl := Option.some.inj h
      exact .releasePort i session port hi hbusy
    · cases h
  | bindOk l =>
    obtain ⟨listener, hl, h⟩ := Option.bind_eq_some_iff.mp h
    rw [listenerStep] at h
    split_ifs at h with hstarting
    obtain rfl := Option.some.inj h
    exact .bind l listener _ _ (.inl ⟨rfl, rfl⟩) hl hstarting
  | bindFail l =>
    obtain ⟨listener, hl, h⟩ := Option.bind_eq_some_iff.mp h
    rw [listenerStep] at h
    split_ifs at h with hstarting
    obtain rfl := Option.some.inj h
    exact .bind l listener _ _ (.inr ⟨rfl, rfl⟩) hl hstarting
  | releaseFailed l =>
    obtain ⟨listener, hl, h⟩ := Option.bind_eq_some_iff.mp h
    rw [listenerStep] at h
    split_ifs at h with hstate
    obtain rfl := Option.some.inj h
    exact .releaseFailed l listener hl hstate

/-- **Live ports are exclusively owned**: distinct sessions have distinct ones, and each is in
use. -/
structure Exclusive (s : LivePorts) : Prop where
  distinct : ∀ (i j : ℕ) (a b : PortSession) (port : UInt16), s.sessions[i]? = some a →
    s.sessions[j]? = some b → a.livePort = some port → b.livePort = some port → i = j
  inUse : ∀ session ∈ s.sessions, ∀ port ∈ session.livePort, port ∈ s.pool.inUse

end LivePorts

namespace PortSession

/-- The port that a session serves, or will when its login is applied. -/
def held (s : PortSession) : Option UInt16 :=
  match s.busy with
  | some (.login port _) => some port
  | _ => s.livePort

/-- The port that a teardown is still to release. -/
def leaving (s : PortSession) : Option UInt16 :=
  match s.busy with
  | some (.teardown port) | some (.release port) => some port
  | _ => none

/-- The port that a session is responsible for: it is to serve it or to release it. -/
def owned (s : PortSession) : Option UInt16 :=
  match s.busy with
  | some (.login port _) | some (.teardown port) | some (.release port) => some port
  | none => s.livePort

/-- A session in the middle of something has no live port. -/
def WellFormed (s : PortSession) : Prop := s.busy.isSome → s.livePort = none

theorem owned_of_held {s : PortSession} (hs : s.WellFormed) {port : UInt16}
    (h : s.held = some port) : s.owned = some port := by
  obtain ⟨livePort, videoListener, busy⟩ := s
  rcases busy with _ | ⟨port', l⟩ | port' | port'
  · exact h
  · exact h
  · rw [held, hs rfl] at h
    cases h
  · rw [held, hs rfl] at h
    cases h

theorem owned_cases {s : PortSession} {port : UInt16} (h : s.owned = some port) :
    s.held = some port ∨ s.leaving = some port := by
  obtain ⟨livePort, videoListener, busy⟩ := s
  rcases busy with _ | ⟨port', l⟩ | port' | port'
  · exact .inl h
  · exact .inl h
  · exact .inr h
  · exact .inr h

theorem held_of_livePort {s : PortSession} (hs : s.WellFormed) {port : UInt16}
    (h : s.livePort = some port) : s.held = some port := by
  obtain ⟨livePort, videoListener, busy⟩ := s
  cases busy with
  | none => exact h
  | some busy =>
    rw [hs rfl] at h
    cases h

end PortSession

namespace LivePorts

/-- A listener task releases its port only when a teardown has taken it, and no port is allocated
between that release and the one of the teardown. -/
def releasesOnce (s : LivePorts) : Event → Prop
  | .releaseFailed l =>
    ∀ listener ∈ s.listeners[l]?, ∀ session ∈ s.sessions, session.held ≠ some listener.port
  | .login _ _ => ∀ session ∈ s.sessions, ∀ port ∈ session.leaving, port ∈ s.pool.inUse
  | _ => True

-- not over all ports, of which there are finitely many
instance (s : LivePorts) (session : PortSession) :
    Decidable (∀ port ∈ session.leaving, port ∈ s.pool.inUse) :=
  Option.decidableForallMem _

instance (s : LivePorts) : (e : Event) → Decidable (s.releasesOnce e)
  | .releaseFailed _ | .login _ _ => inferInstanceAs (Decidable (∀ x ∈ _, _))
  | .connect | .applyLogin _ | .bindOk _ | .bindFail _ | .teardown _ | .abortListener _
  | .releasePort _ => .isTrue trivial

/-- Every port has at most one session responsible for it, and ports that are served are in
use. -/
structure Inv (s : LivePorts) : Prop where
  wellFormed : ∀ session ∈ s.sessions, session.WellFormed
  distinct : ∀ (i j : ℕ) (a b : PortSession) (port : UInt16), s.sessions[i]? = some a →
    s.sessions[j]? = some b → a.owned = some port → b.owned = some port → i = j
  inUse : ∀ session ∈ s.sessions, ∀ port, session.held = some port → port ∈ s.pool.inUse

/-- At first there are no sessions. -/
theorem inv_new (pool : PortPool) : (new pool).Inv where
  wellFormed _ h := absurd h List.not_mem_nil
  distinct i _ _ _ _ h := by
    rw [new, List.getElem?_nil] at h
    cases h
  inUse _ h := absurd h List.not_mem_nil

/-- One session changes: what it is now responsible for is nobody else's, and the ports that are
served stay in use. -/
theorem Inv.replace {s : LivePorts} (h : s.Inv) {i : ℕ} {pool : PortPool} {new : PortSession}
    (listeners : List Listener) (hwf : new.WellFormed)
    (howned : ∀ port, new.owned = some port → ∀ (j : ℕ) (a : PortSession), j ≠ i →
      s.sessions[j]? = some a → a.owned ≠ some port)
    (hothers : ∀ (j : ℕ) (a : PortSession) (port : UInt16), j ≠ i → s.sessions[j]? = some a →
      a.held = some port → port ∈ pool.inUse)
    (hnew : ∀ port, new.held = some port → port ∈ pool.inUse) :
    Inv ⟨pool, s.sessions.set i new, listeners⟩ := by
  have hget : ∀ {j : ℕ} {a : PortSession}, (s.sessions.set i new)[j]? = some a →
      (j = i ∧ a = new) ∨ (j ≠ i ∧ s.sessions[j]? = some a) := by
    intro j a hj
    rw [List.getElem?_set] at hj
    split_ifs at hj with hij
    · exact .inl ⟨hij.symm, (Option.some.inj hj).symm⟩
    · exact .inr ⟨Ne.symm hij, hj⟩
  refine ⟨?_, ?_, ?_⟩
  · intro session hmem
    obtain ⟨j, hj⟩ := List.getElem?_of_mem hmem
    rcases hget hj with ⟨-, rfl⟩ | ⟨-, hj⟩
    · exact hwf
    · exact h.wellFormed session (List.mem_of_getElem? hj)
  · intro j k a b port ha hb hport hport'
    rcases hget ha with ⟨hji, hanew⟩ | ⟨hji, haold⟩
    · rcases hget hb with ⟨hki, -⟩ | ⟨hki, hbold⟩
      · rw [hji, hki]
      · rw [hanew] at hport
        exact absurd hport' (howned port hport k b hki hbold)
    · rcases hget hb with ⟨-, hbnew⟩ | ⟨-, hbold⟩
      · rw [hbnew] at hport'
        exact absurd hport (howned port hport' j a hji haold)
      · exact h.distinct j k a b port haold hbold hport hport'
  · intro session hmem port hport
    obtain ⟨j, hj⟩ := List.getElem?_of_mem hmem
    rcases hget hj with ⟨-, rfl⟩ | ⟨hji, hj⟩
    · exact hnew port hport
    · exact hothers j session port hji hj hport

/-- A session that is responsible for the same port as before, or for none. -/
theorem Inv.keep {s : LivePorts} (h : s.Inv) {i : ℕ} {old new : PortSession}
    (hi : s.sessions[i]? = some old) (listeners : List Listener) (hwf : new.WellFormed)
    (howned : ∀ port, new.owned = some port → old.owned = some port)
    (hheld : ∀ port, new.held = some port → old.held = some port) :
    Inv ⟨s.pool, s.sessions.set i new, listeners⟩ := by
  refine h.replace listeners hwf ?_ ?_ ?_
  · intro port hport j a hji ha hport'
    exact hji (h.distinct j i a old port ha hi hport' (howned port hport))
  · intro j a port _ ha
    exact h.inUse a (List.mem_of_getElem? ha) port
  · intro port hport
    exact h.inUse old (List.mem_of_getElem? hi) port (hheld port hport)

/-- An allocation: the port was nobody's, since every port that somebody is responsible for is in
use. -/
theorem Inv.login {s : LivePorts} (h : s.Inv) {i : ℕ} {session : PortSession}
    {probe : ℕ → UInt16 → Bool}
    (hguard : ∀ session ∈ s.sessions, ∀ port ∈ session.leaving, port ∈ s.pool.inUse) :
    (s.login i session probe).Inv := by
  unfold LivePorts.login
  cases hlive : session.livePort with
  | some port => exact h
  | none =>
    rcases halloc : s.pool.alloc probe with ⟨_ | port, pool⟩
    · refine ⟨h.wellFormed, h.distinct, ?_⟩
      rw [PortPool.alloc_none halloc]
      exact h.inUse
    · obtain ⟨hfree, huse⟩ := PortPool.alloc_some halloc
      refine h.replace _ (fun _ => rfl) ?_ ?_ ?_
      -- a port that somebody serves or leaves is in use, so it is not the one that was free
      · rintro _ ⟨⟩ j a - ha hport
        refine hfree ?_
        have hmem := List.mem_of_getElem? ha
        rcases PortSession.owned_cases hport with hheld | hleaving
        · exact h.inUse a hmem port hheld
        · exact hguard a hmem port hleaving
      · intro j a port' _ ha hport'
        rw [huse]
        exact Finset.mem_insert_of_mem (h.inUse a (List.mem_of_getElem? ha) port' hport')
      · rintro _ ⟨⟩
        rw [huse]
        exact Finset.mem_insert_self port _

/-- The end of a teardown: nobody else serves the port that is released. -/
theorem Inv.releasePort {s : LivePorts} (h : s.Inv) {i : ℕ} {session : PortSession}
    {port : UInt16} (hi : s.sessions[i]? = some session)
    (hbusy : session.busy = some (.release port)) :
    Inv { s.setSession i { session with busy := none } with pool := s.pool.release port } := by
  have hmem := List.mem_of_getElem? hi
  have howned : session.owned = some port := by
    rw [PortSession.owned, hbusy]
  have hlive : session.livePort = none := h.wellFormed session hmem (by rw [hbusy]; rfl)
  have hnone : ∀ port', ({ session with busy := none } : PortSession).livePort ≠ some port' := by
    intro port' hport'
    rw [show ({ session with busy := none } : PortSession).livePort = none from hlive] at hport'
    cases hport'
  refine h.replace _ (fun _ => hlive) (fun port' hport' => absurd hport' (hnone port')) ?_
    (fun port' hport' => absurd hport' (hnone port'))
  intro j a port' hji ha hport'
  have hamem := List.mem_of_getElem? ha
  -- only this session is responsible for the port that leaves the pool
  refine Finset.mem_erase.mpr ⟨?_, h.inUse a hamem port' hport'⟩
  rintro rfl
  exact hji (h.distinct j i a session port' ha hi
    (PortSession.owned_of_held (h.wellFormed a hamem) hport') howned)

/-- A listener releases a port that nobody serves. -/
theorem Inv.releaseFailed {s : LivePorts} (h : s.Inv) {port : UInt16}
    (hguard : ∀ session ∈ s.sessions, session.held ≠ some port) (listeners : List Listener) :
    Inv ⟨s.pool.release port, s.sessions, listeners⟩ := by
  refine ⟨h.wellFormed, h.distinct, fun session hmem port' hport' => ?_⟩
  refine Finset.mem_erase.mpr ⟨?_, h.inUse session hmem port' hport'⟩
  rintro rfl
  exact hguard session hmem hport'

theorem Inv.listeners {s : LivePorts} (h : s.Inv) (listeners : List Listener) :
    Inv ⟨s.pool, s.sessions, listeners⟩ := ⟨h.wellFormed, h.distinct, h.inUse⟩

theorem Inv.connect {s : LivePorts} (h : s.Inv) :
    Inv { s with sessions := s.sessions ++ [⟨none, none, none⟩] } := by
  have hget : ∀ {j : ℕ} {a : PortSession}, (s.sessions ++ [⟨none, none, none⟩])[j]? = some a →
      s.sessions[j]? = some a ∨ a = ⟨none, none, none⟩ := by
    intro j a hj
    rw [List.getElem?_append] at hj
    split_ifs at hj
    · exact .inl hj
    · exact .inr (List.mem_singleton.mp (List.mem_of_getElem? hj))
  refine ⟨?_, ?_, ?_⟩
  · intro session hmem
    rcases List.mem_append.mp hmem with hmem | hmem
    · exact h.wellFormed session hmem
    · obtain rfl := List.mem_singleton.mp hmem
      exact fun _ => rfl
  · intro i j a b port ha hb hport hport'
    rcases hget ha with ha | rfl
    · rcases hget hb with hb | rfl
      · exact h.distinct i j a b port ha hb hport hport'
      · cases hport'
    · cases hport
  · intro session hmem port hport
    rcases List.mem_append.mp hmem with hmem | hmem
    · exact h.inUse session hmem port hport
    · obtain rfl := List.mem_singleton.mp hmem
      cases hport

theorem Inv.step {s : LivePorts} {e : Event} {s' : LivePorts} (h : s.Inv)
    (hguard : s.releasesOnce e) (hstep : s.step e = some s') : s'.Inv := by
  cases step_cases hstep with
  | connect => exact h.connect
  | login => exact h.login hguard
  | applyLogin i session port l hi hbusy =>
    refine h.keep hi _ (fun hnone => by cases hnone) ?_ ?_
    · rintro _ ⟨⟩
      rw [PortSession.owned, hbusy]
    · rintro _ ⟨⟩
      rw [PortSession.held, hbusy]
  | idle => exact h
  | teardown i session port hi hidle hlive =>
    -- the port is no longer served, and is still to be released
    refine h.keep hi _ (fun _ => rfl) ?_ (fun _ hport => by cases hport)
    rintro _ ⟨⟩
    rw [PortSession.owned, hidle]
    exact hlive
  | abortListener i session port listeners hi hbusy =>
    refine h.keep hi _ (fun _ => rfl) ?_ (fun _ hport => by cases hport)
    rintro _ ⟨⟩
    rw [PortSession.owned, hbusy]
  | releasePort i session port hi hbusy => exact h.releasePort hi hbusy
  | bind => exact h.listeners _
  | releaseFailed l listener hl => exact h.releaseFailed (hguard listener hl) _

theorem Inv.exclusive {s : LivePorts} (h : s.Inv) : s.Exclusive := by
  have hheld : ∀ {session : PortSession} {port : UInt16}, session ∈ s.sessions →
      session.livePort = some port → session.held = some port :=
    fun hmem hport => PortSession.held_of_livePort (h.wellFormed _ hmem) hport
  refine ⟨?_, ?_⟩
  · intro i j a b port ha hb hport hport'
    have hamem := List.mem_of_getElem? ha
    have hbmem := List.mem_of_getElem? hb
    exact h.distinct i j a b port ha hb
      (PortSession.owned_of_held (h.wellFormed a hamem) (hheld hamem hport))
      (PortSession.owned_of_held (h.wellFormed b hbmem) (hheld hbmem hport'))
  · intro session hmem port hport
    exact h.inUse session hmem port (hheld hmem hport)

/-- Every probe succeeds. -/
def allFree : ℕ → UInt16 → Bool := fun _ _ => true

end LivePorts

end Fosipcore
