import Fosipcore.Core.Login

/-!
# Refused logins

A camera that refuses a login answers with a status other than 2xx, which makes a CGI result other
than 0. Such a login should change nothing: not the session, its video server, its port or its
listener, and not the ports that the pool has handed out.

Only a camera that cannot be reached ends the login. An answer is handled alike whatever its result:
a live port is allocated, and the session is armed with the camera and the credentials. So a refused
login changes nothing when there is no port for it, and the failure of the allocation is what the
browser is told.

## Main definitions

* `Refused`: a login that the camera refuses
* `ChangesNothing`: what such a login should do

## Main results

* `changesNothing_iff`: a refused login changes nothing if and only if the pool is exhausted, and
  the session has no live port
-/

namespace Fosipcore

namespace Login

open Text
open Cgi hiding gatherInitInfo

/-- The camera is asked, and answers with a result other than 0. -/
def Refused (origin : Option OriginInfo) (cmdObject : Option Json) (world : World) : Prop :=
  ∃ cmd pinned resp, Answered origin cmdObject world cmd pinned resp ∧ (cgiResult resp).result ≠ 0

/-- The session and the ports in use are what they were, and the only response is a failing login
response. -/
structure ChangesNothing (isRelogin : Bool) (before after : State) (responses : List Str) :
    Prop where
  session : after.session = before.session
  videoListener : after.videoListener = before.videoListener
  inUse : after.pool.inUse = before.pool.inUse
  responses : ∃ resp : CgiResponse, resp.result ≠ 0 ∧ responses = [loginResponse isRelogin resp]

variable {isRelogin : Bool} {origin : Option OriginInfo} {state : State} {cmdObject : Option Json}
  {world : World}

/-- A login that arms the session has more than one response. -/
theorem loginResponses_ne (isRelogin : Bool) (world : World) (livePort : UInt16)
    (resp : CgiResponse) (response : Str) :
    loginResponses isRelogin world livePort resp ≠ [response] := by
  intro h
  have hlength := congrArg List.length h
  simp only [loginResponses, List.length_cons, List.length_append, List.length_nil] at hlength
  omega

/-- There is no port for the login: the session has none, and none of the candidates of the pool is
free. -/
def NoPort (state : State) (probe : ℕ → UInt16 → Bool) : Prop :=
  state.session.livePort = none ∧ state.pool.Exhausted probe state.pool.count.toNat

theorem ensureSessionVideo_none_iff {probe : ℕ → UInt16 → Bool} {pool : PortPool} :
    ensureSessionVideo state probe = (none, pool) ↔
      NoPort state probe ∧ pool = state.pool.skip state.pool.count.toNat := by
  rw [NoPort, and_assoc, ← PortPool.allocLoop_none_iff, ensureSessionVideo]
  cases state.session.livePort with
  | some port => simp
  | none =>
    rw [PortPool.alloc]
    rcases state.pool.allocLoop probe state.pool.count.toNat with ⟨_ | port, pool'⟩
    · simp
    · simp

/-- A login for which there is no port fails, and moves the counter of the pool past its
candidates. -/
theorem processLogin_noPort (isRelogin : Bool) (hrefused : Refused origin cmdObject world)
    (hport : NoPort state world.probe) :
    processLogin isRelogin origin state cmdObject world =
      ({ state with pool := state.pool.skip state.pool.count.toNat },
        [loginResponse isRelogin ⟨-1, failureXml "too many concurrent video sessions".toList⟩]) := by
  obtain ⟨cmd, pinned, resp, hanswered, -⟩ := hrefused
  -- the result of the answer plays no part
  rw [processLogin_answered isRelogin state hanswered,
    ensureSessionVideo_none_iff.mpr ⟨hport, rfl⟩]

/-- A login for which there is a port has the responses of one that is accepted. -/
theorem processLogin_port (isRelogin : Bool) (hrefused : Refused origin cmdObject world)
    (hport : ¬ NoPort state world.probe) :
    ∃ livePort resp, (processLogin isRelogin origin state cmdObject world).2 =
      loginResponses isRelogin world livePort resp := by
  obtain ⟨cmd, pinned, resp, hanswered, -⟩ := hrefused
  rw [processLogin_answered isRelogin state hanswered]
  cases hensure : ensureSessionVideo state world.probe with
  | mk video pool =>
    cases video with
    | none => exact absurd (ensureSessionVideo_none_iff.mp hensure).1 hport
    | some video => exact ⟨video.1, cgiResult resp, rfl⟩

/-- A refused login that changes nothing has found no port: otherwise it has more responses. -/
theorem noPort_of_changesNothing (hrefused : Refused origin cmdObject world)
    (hnothing : ChangesNothing isRelogin state
      (processLogin isRelogin origin state cmdObject world).1
      (processLogin isRelogin origin state cmdObject world).2) : NoPort state world.probe := by
  by_contra hport
  obtain ⟨livePort, resp, hresponses⟩ := processLogin_port isRelogin hrefused hport
  obtain ⟨failure, -, honly⟩ := hnothing.responses
  exact loginResponses_ne _ _ _ _ _ (hresponses.symm.trans honly)

/-- **A refused login changes nothing if and only if there is no port for it**: the session has no
live port, and none of the candidates of the pool is free. Of the pool, the counter is moved on
then, so that no refused login leaves everything as it was. -/
theorem changesNothing_iff (hrefused : Refused origin cmdObject world) :
    (ChangesNothing isRelogin state (processLogin isRelogin origin state cmdObject world).1
        (processLogin isRelogin origin state cmdObject world).2 ↔ NoPort state world.probe) ∧
    (NoPort state world.probe → (processLogin isRelogin origin state cmdObject world).1 =
      { state with pool := state.pool.skip state.pool.count.toNat }) ∧
    ¬ (ChangesNothing isRelogin state (processLogin isRelogin origin state cmdObject world).1
        (processLogin isRelogin origin state cmdObject world).2 ∧
      (processLogin isRelogin origin state cmdObject world).1.pool = state.pool) := by
  refine ⟨⟨noPort_of_changesNothing hrefused, ?_⟩, ?_, ?_⟩
  · intro hport
    rw [processLogin_noPort isRelogin hrefused hport]
    exact ⟨rfl, rfl, rfl, _, by decide, rfl⟩
  · intro hport
    rw [processLogin_noPort isRelogin hrefused hport]
  · -- the search for a port has moved the counter
    rintro ⟨hnothing, hpool⟩
    rw [processLogin_noPort isRelogin hrefused (noPort_of_changesNothing hrefused hnothing)] at hpool
    exact PortPool.skip_count_ne state.pool hpool

/-! ## A redirect -/

/-- The login of a page of the camera. -/
def sampleLogin : Option Json :=
  some (.object [("ip".toList, .string "192.168.1.10".toList), ("pwd".toList, .string "x".toList),
    ("usr".toList, .string "admin".toList)])

def samplePage : Option OriginInfo := some ⟨"192.168.1.10".toList, 88⟩

/-- A camera that answers every login with a redirect. -/
def redirecting (probe : ℕ → UInt16 → Bool) : World where
  lookupHost := none
  login := some ⟨302, "302 Found".toList, []⟩
  query _ := none
  probe := probe

/-- A session that has just begun. -/
def freshState : State := ⟨.new, none, .new 11000 1, 0⟩

theorem refused_redirecting (probe : ℕ → UInt16 → Bool) :
    Refused samplePage sampleLogin (redirecting probe) := by
  have hadmitted : admitted samplePage
      ⟨some "192.168.1.10".toList, "admin".toList, "x".toList, none, none⟩ none =
        some ⟨.v4 ⟨192, 168, 1, 10⟩, 88⟩ := by
    decide +kernel
  exact ⟨_, _, _, ⟨rfl, hadmitted, rfl⟩, by decide⟩

/-- Without a port, the redirect changes nothing. -/
theorem changesNothing_iff_noPort :
    ChangesNothing false freshState
      (processLogin false samplePage freshState sampleLogin (redirecting fun _ _ => false)).1
      (processLogin false samplePage freshState sampleLogin (redirecting fun _ _ => false)).2 :=
  (changesNothing_iff (refused_redirecting _)).1.mpr ⟨rfl, fun _ _ => .inr rfl⟩

/-- With a port, the redirect arms the session. -/
theorem redirect_arms : ¬ ∀ (isRelogin : Bool) (origin : Option OriginInfo) (state : State)
    (cmdObject : Option Json) (world : World), Refused origin cmdObject world →
      ChangesNothing isRelogin state (processLogin isRelogin origin state cmdObject world).1
        (processLogin isRelogin origin state cmdObject world).2 := by
  intro h
  have hnothing := h false samplePage freshState sampleLogin _
    (refused_redirecting fun _ _ => true)
  have hport : (processLogin false samplePage freshState sampleLogin
      (redirecting fun _ _ => true)).1.session.livePort = some 11000 := by decide +kernel
  rw [hnothing.session] at hport
  cases hport

end Login

end Fosipcore
