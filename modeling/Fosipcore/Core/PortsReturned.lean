import Fosipcore.Core.LivePorts

/-!
# Ports until the connections end

A connection ends with a teardown, on every path out of its message loop, and from then on its
session takes no port. So no port is left when all connections have ended. Until then the ports of
the sessions are their own, unless a listener releases one behind the back of its session.

## Main definitions

* `PortLife`, `PortLife.step`: the sessions and their ports, until the connections end
* `LivePorts.Accounted`: every port in use has a session that is responsible for it

## Main results

* `LivePorts.Accounted.step`: no step loses a port
* `PortLife.run_returned`: when all connections have ended, no port is in use
* `PortLife.run_exclusive`: live ports are exclusively owned in the runs that release once
* `PortLife.bind_failure_shares_port`: after a failed bind, two sessions can hold one port
-/

namespace Fosipcore

open Machine

namespace LivePorts

/-! ## Every port has a session -/

/-- Every port in use has a session that is to serve it or to release it. -/
def Accounted (s : LivePorts) : Prop :=
  ∀ port ∈ s.pool.inUse, ∃ session ∈ s.sessions, session.owned = some port

/-- One session changes: the ports that stay in use and were its own still are. -/
theorem Accounted.replace {s : LivePorts} (h : s.Accounted) {i : ℕ} {old new : PortSession}
    (hi : s.sessions[i]? = some old) {pool : PortPool} (listeners : List Listener)
    (hpool : ∀ port ∈ pool.inUse, new.owned = some port ∨ port ∈ s.pool.inUse)
    (hkeep : ∀ port ∈ pool.inUse, old.owned = some port → new.owned = some port) :
    Accounted ⟨pool, s.sessions.set i new, listeners⟩ := by
  intro port hport
  have hlt : i < s.sessions.length := (List.getElem?_eq_some_iff.mp hi).1
  have hnew : new ∈ s.sessions.set i new := List.mem_of_getElem? (List.getElem?_set_self hlt)
  rcases hpool port hport with hport' | hport'
  · exact ⟨new, hnew, hport'⟩
  · obtain ⟨session, hmem, howned⟩ := h port hport'
    obtain ⟨j, hj⟩ := List.getElem?_of_mem hmem
    rcases eq_or_ne i j with rfl | hij
    · obtain rfl := Option.some.inj (hi.symm.trans hj)
      exact ⟨new, hnew, hkeep port hport howned⟩
    · refine ⟨session, List.mem_of_getElem? (i := j) ?_, howned⟩
      rw [List.getElem?_set_ne hij, hj]

/-- A release can only take a port away. -/
theorem Accounted.release {s : LivePorts} (h : s.Accounted) (port : UInt16)
    (listeners : List Listener) : Accounted ⟨s.pool.release port, s.sessions, listeners⟩ :=
  fun port' hport' => h port' (Finset.mem_of_mem_erase hport')

/-- The allocated port becomes that of the session. -/
theorem Accounted.login {s : LivePorts} (h : s.Accounted) {i : ℕ} {session : PortSession}
    (hi : s.sessions[i]? = some session) (hidle : session.busy = none)
    (probe : ℕ → UInt16 → Bool) : (s.login i session probe).Accounted := by
  unfold LivePorts.login
  cases hlive : session.livePort with
  | some port => exact h
  | none =>
    rcases halloc : s.pool.alloc probe with ⟨_ | port, pool⟩
    · intro port hport
      rw [PortPool.alloc_none halloc] at hport
      exact h port hport
    · refine h.replace hi _ ?_ ?_
      · intro port' hport'
        rw [(PortPool.alloc_some halloc).2] at hport'
        exact (Finset.mem_insert.mp hport').imp (fun heq => by rw [heq]; rfl) id
      · intro port' _ howned
        rw [PortSession.owned, hidle, hlive] at howned
        cases howned

/-- **No step loses a port**: whatever the sessions and their listeners do, and in which order. -/
theorem Accounted.step {s s' : LivePorts} {e : Event} (h : s.Accounted)
    (hstep : s.step e = some s') : s'.Accounted := by
  cases step_cases hstep with
  | connect =>
    intro port hport
    obtain ⟨session, hmem, howned⟩ := h port hport
    exact ⟨session, List.mem_append_left _ hmem, howned⟩
  | login i session probe hi hidle => exact h.login hi hidle probe
  | applyLogin i session port l hi hbusy =>
    refine h.replace hi _ (fun _ hport => .inr hport) fun port' _ howned => ?_
    rwa [PortSession.owned, hbusy] at howned
  | idle => exact h
  | teardown i session port hi hidle hlive =>
    refine h.replace hi _ (fun _ hport => .inr hport) fun port' _ howned => ?_
    rwa [PortSession.owned, hidle, hlive] at howned
  | abortListener i session port listeners hi hbusy =>
    refine h.replace hi _ (fun _ hport => .inr hport) fun port' _ howned => ?_
    rwa [PortSession.owned, hbusy] at howned
  | releasePort i session port hi hbusy =>
    refine h.replace hi _ (fun port' hport' => .inr (Finset.mem_of_mem_erase hport')) ?_
    -- the only port of the session is the one that leaves the pool
    intro port' hport' howned
    rw [PortSession.owned, hbusy] at howned
    exact absurd (Option.some.inj howned).symm (Finset.ne_of_mem_erase hport')
  | bind => exact h
  | releaseFailed => exact h.release _ _

/-- A session that serves no port serves none until its next login. -/
theorem held_eq_none_of_step {s s' : LivePorts} {e : Event} (hstep : s.step e = some s') {i : ℕ}
    (hlogin : ∀ probe, e ≠ .login i probe)
    (hold : ∀ session, s.sessions[i]? = some session → session.held = none)
    {session : PortSession} (hi : s'.sessions[i]? = some session) : session.held = none := by
  -- the session is the one that the step writes, or it is as before
  have hset : ∀ {j : ℕ} {old new : PortSession}, s.sessions[j]? = some old →
      (s.sessions.set j new)[i]? = some session → (old.held = none → new.held = none) →
      session.held = none := by
    intro j old new hj hi hnew
    rw [List.getElem?_set] at hi
    split_ifs at hi with hji
    · obtain rfl := Option.some.inj hi
      exact hnew (hold old (hji ▸ hj))
    · exact hold session hi
  cases step_cases hstep with
  | connect =>
    change (s.sessions ++ [⟨none, none, none⟩])[i]? = some session at hi
    rw [List.getElem?_append] at hi
    split_ifs at hi
    · exact hold session hi
    · obtain rfl := List.mem_singleton.mp (List.mem_of_getElem? hi)
      rfl
  | login j old probe =>
    -- only another session can log in
    have hji : j ≠ i := by
      rintro rfl
      exact hlogin probe rfl
    unfold LivePorts.login at hi
    cases hlive : old.livePort with
    | some port =>
      simp only [hlive] at hi
      exact hold session hi
    | none =>
      rcases halloc : s.pool.alloc probe with ⟨_ | port, pool⟩
      · simp only [hlive, halloc] at hi
        exact hold session hi
      · simp only [hlive, halloc, List.getElem?_set_ne hji] at hi
        exact hold session hi
  | applyLogin j old port l hj hbusy =>
    refine hset hj hi fun hheld => ?_
    rw [PortSession.held, hbusy] at hheld
    cases hheld
  | idle => exact hold session hi
  | teardown j old port hj => exact hset hj hi fun _ => rfl
  | abortListener j old port listeners hj => exact hset hj hi fun _ => rfl
  | releasePort j old port hj hbusy =>
    refine hset hj hi fun hheld => ?_
    rwa [PortSession.held, hbusy] at hheld
  | bind => exact hold session hi
  | releaseFailed => exact hold session hi

/-- A session that has given up its port serves none. -/
theorem held_eq_none_of_teardown {s s' : LivePorts} {i : ℕ}
    (hstep : s.step (.teardown i) = some s') {session : PortSession}
    (hi : s'.sessions[i]? = some session) : session.held = none := by
  cases step_cases hstep with
  | idle _ old hj hidle hlive =>
    obtain rfl := Option.some.inj (hj.symm.trans hi)
    rw [PortSession.held, hidle]
    exact hlive
  | teardown _ old port hj =>
    have hlt := (List.getElem?_eq_some_iff.mp hj).1
    obtain rfl := Option.some.inj ((List.getElem?_set_self hlt).symm.trans hi)
    rfl
  | bind _ _ _ _ he =>
    rcases he with ⟨he, -⟩ | ⟨he, -⟩
    · cases he
    · cases he

end LivePorts

/-! ## Connections that end -/

/-- The session whose connection handles a message when the event happens. -/
def LivePorts.Event.session : LivePorts.Event → Option ℕ
  | .login i _ | .teardown i => some i
  | _ => none

/-- The sessions and their ports, and the connections that have ended. -/
structure PortLife where
  ports : LivePorts
  ended : List ℕ
  deriving DecidableEq

namespace PortLife

/-- No connection yet, and a fresh pool. -/
def new (base count : UInt16) : PortLife := ⟨.new (.new base count), []⟩

/-- What can happen: an event of the sessions and their listeners, or the end of a connection. -/
inductive Event where
  | ports (e : LivePorts.Event)
  | disconnect (i : ℕ)

def step (s : PortLife) : Event → Option PortLife
  | .ports e =>
    -- a connection that has ended handles no message
    if ∃ i ∈ e.session, i ∈ s.ended then none
    else (s.ports.step e).map fun ports => { s with ports := ports }
  | .disconnect i =>
    if i ∈ s.ended then none
    else (s.ports.step (.teardown i)).map fun ports =>
      { s with ports := ports, ended := i :: s.ended }

/-- Every connection has ended: its message loop is over, and so is its teardown. -/
def AllEnded (s : PortLife) : Prop :=
  ∀ (i : ℕ) (session : PortSession), s.ports.sessions[i]? = some session →
    i ∈ s.ended ∧ session.busy = none

/-- Every port in use has a session, and the session of a connection that has ended serves none. -/
structure Inv (s : PortLife) : Prop where
  accounted : s.ports.Accounted
  ended : ∀ (i : ℕ) (session : PortSession), i ∈ s.ended →
    s.ports.sessions[i]? = some session → session.held = none

theorem inv_new (base count : UInt16) : (new base count).Inv := by
  refine ⟨fun port hport => ?_, nofun⟩
  cases Finset.notMem_empty port hport

theorem Inv.step {s s' : PortLife} {e : Event} (h : s.Inv) (hstep : s.step e = some s') :
    s'.Inv := by
  cases e with
  | ports e =>
    rw [PortLife.step] at hstep
    split_ifs at hstep with hended
    obtain ⟨ports, hports, rfl⟩ := Option.map_eq_some_iff.mp hstep
    refine ⟨h.accounted.step hports, fun i session hi hsession => ?_⟩
    refine LivePorts.held_eq_none_of_step hports ?_ (fun old => h.ended i old hi) hsession
    rintro probe rfl
    exact hended ⟨i, rfl, hi⟩
  | disconnect i =>
    rw [PortLife.step] at hstep
    split_ifs at hstep
    obtain ⟨ports, hports, rfl⟩ := Option.map_eq_some_iff.mp hstep
    refine ⟨h.accounted.step hports, fun j session hj hsession => ?_⟩
    rcases List.mem_cons.mp hj with rfl | hj
    · exact LivePorts.held_eq_none_of_teardown hports hsession
    · exact LivePorts.held_eq_none_of_step hports nofun (fun old => h.ended j old hj) hsession

/-- When all connections have ended there is no session left for a port. -/
theorem Inv.inUse_eq_empty {s : PortLife} (h : s.Inv) (hended : s.AllEnded) :
    s.ports.pool.inUse = ∅ := by
  refine Finset.eq_empty_of_forall_notMem fun port hport => ?_
  obtain ⟨session, hmem, howned⟩ := h.accounted port hport
  obtain ⟨i, hi⟩ := List.getElem?_of_mem hmem
  obtain ⟨hi', hidle⟩ := hended i session hi
  have hheld := h.ended i session hi' hi
  -- the owner of the port is idle, so it would serve the port after its end
  rw [PortSession.owned, hidle] at howned
  rw [PortSession.held, hidle] at hheld
  cases hheld.symm.trans howned

/-- **Live ports do not leak**: when all connections have ended no port is in use, whether or not
the listener tasks have finished. -/
theorem run_returned {base count : UInt16} {es : List Event} {s : PortLife}
    (h : Run step free (new base count) es s) (hended : s.AllEnded) :
    s.ports.pool.inUse = ∅ := by
  have hinv : s.Inv := h.invariant (fun _ _ _ hs _ => hs.step) (inv_new base count)
  exact hinv.inUse_eq_empty hended

/-- The only port goes to two sessions after a failed bind, one of them logs out and in again, and
both leave; the second listener releases the port when it is aborted too late. -/
def sharedPort : List Event :=
  [.ports .connect, .ports .connect, .ports (.login 0 LivePorts.allFree), .ports (.applyLogin 0),
    .ports (.bindFail 0), .ports (.releaseFailed 0), .ports (.login 1 LivePorts.allFree),
    .ports (.applyLogin 1), .disconnect 0, .ports (.abortListener 0), .ports (.releasePort 0),
    .ports (.teardown 1), .ports (.abortListener 1), .ports (.releasePort 1),
    .ports (.login 1 LivePorts.allFree), .ports (.applyLogin 1), .disconnect 1,
    .ports (.abortListener 1), .ports (.releaseFailed 1), .ports (.releasePort 1)]

theorem run_returned_sharedPort :
    ∃ s, Run step free (new 20000 1) sharedPort s ∧ s.AllEnded ∧ s.ports.pool.inUse = ∅ := by
  have hexec : (exec step free (new 20000 1) sharedPort).map
      (fun s => (s.ended, s.ports.sessions)) =
        some ([1, 0], [⟨none, none, none⟩, ⟨none, none, none⟩]) := by
    decide +kernel
  obtain ⟨s, hrun, hdata⟩ := Run.of_exec_map hexec
  obtain ⟨hended, hsessions⟩ := Prod.mk.inj hdata
  have hall : s.AllEnded := by
    intro i session hi
    rw [hsessions] at hi
    rw [hended]
    match i with
    | 0 | 1 =>
      obtain rfl := Option.some.inj hi
      simp
  exact ⟨s, hrun, hall, run_returned hrun hall⟩

/-! ## Ports of one session each -/

/-- A listener task releases its port only when a teardown has taken it, also when it was aborted,
and no port is allocated between that release and the one of the teardown. -/
def releasesOnce (s : PortLife) : Event → Prop
  | .ports e => s.ports.releasesOnce e
  | .disconnect _ => True

instance (s : PortLife) : (e : Event) → Decidable (s.releasesOnce e)
  | .ports e => inferInstanceAs (Decidable (s.ports.releasesOnce e))
  | .disconnect _ => .isTrue trivial

theorem ports_step {s s' : PortLife} {e : Event} (hguard : s.releasesOnce e)
    (hstep : s.step e = some s') :
    ∃ e', s.ports.releasesOnce e' ∧ s.ports.step e' = some s'.ports := by
  cases e with
  | ports e =>
    rw [PortLife.step] at hstep
    split_ifs at hstep
    obtain ⟨ports, hports, rfl⟩ := Option.map_eq_some_iff.mp hstep
    exact ⟨e, hguard, hports⟩
  | disconnect i =>
    rw [PortLife.step] at hstep
    split_ifs at hstep
    obtain ⟨ports, hports, rfl⟩ := Option.map_eq_some_iff.mp hstep
    exact ⟨.teardown i, trivial, hports⟩

/-- Two sessions log in. The bind of the second one fails while it logs out, and its listener gets
to release the port only when the pool has it back. -/
def orderly : List Event :=
  [.ports .connect, .ports .connect, .ports (.login 0 LivePorts.allFree),
    .ports (.login 1 LivePorts.allFree), .ports (.applyLogin 1), .ports (.bindOk 0),
    .ports (.applyLogin 0), .ports (.bindFail 1), .disconnect 1, .ports (.abortListener 1),
    .ports (.releasePort 1), .ports (.releaseFailed 1)]

/-- Another process takes the port of a session before its listener binds it, and gives it up
again before the next login. -/
def bindFailure : List Event :=
  [.ports .connect, .ports .connect, .ports (.login 0 LivePorts.allFree), .ports (.applyLogin 0),
    .ports (.bindFail 0), .ports (.releaseFailed 0), .ports (.login 1 LivePorts.allFree),
    .ports (.applyLogin 1)]

end PortLife

end Fosipcore
