import Fosipcore.Core.Login

/-!
# Rejected logins in the log

A login whose `cmdObject` is an object, but no login command, is logged as an error, with the text of
the object. The text is masked twice, when the error is made and when it is logged. Masking is for
query strings: what it looks for is a key with `=`, and in the text of an object the keys are followed
by a quotation mark. So it is not the password that is masked, but only what looks like a value of a
query within the password.

## Main definitions

* `loginError`: what is logged for a login

## Main results

* `loginError_eq_iff`: passwords are logged alike if and only if they differ in such values
* `pwdText_injective`: a password without `=` is logged as it is
-/

namespace Fosipcore

namespace Login

open Text

variable {isRelogin : Bool} {origin : Option OriginInfo} {state : State} {world : World}

/-- What is logged as an error for a login message. -/
def loginError (isRelogin : Bool) (origin : Option OriginInfo) (state : State)
    (cmdObject : Option Json) (world : World) : Option Str :=
  (dispatchLogin isRelogin origin state cmdObject world).2.2

/-- An object with a password, among the entries before and after it. -/
def withPwd (pre post : List (Str × Json)) (pwd : Str) : Json :=
  .object (pre ++ ("pwd".toList, .string pwd) :: post)

theorem loginError_of_none {v : Json} (h : LoginCmd.fromValue v = none) :
    loginError isRelogin origin state (some v) world =
      some ("Login error: ".toList ++ redactCreds ("login cmdObject error: ".toList ++
        ("present but parse failed: ".toList ++ redactCreds v.print))) := by
  rw [loginError, dispatchLogin, handleLogin, Option.bind_some, h]
  rfl

/-- The error of an object with a password, as it is logged. -/
def pwdText (pre post : List (Str × Json)) (pwd : Str) : Str :=
  redactCreds ("login cmdObject error: ".toList ++
    ("present but parse failed: ".toList ++ redactCreds (withPwd pre post pwd).print))

/-- The text around the password is the same for every password, and the password is masked on its
own. -/
theorem pwdText_split (pre post : List (Str × Json)) :
    ∃ before after : Str, ∀ pwd : Str,
      pwdText pre post pwd = before ++ '\"' :: (redactCreds (Json.escape pwd) ++ '\"' :: after) := by
  have hquote : '\"' ∈ terminators := by decide
  obtain ⟨before, after, hprint⟩ := Json.print_object_split "pwd".toList pre post
  refine ⟨redactCreds ("login cmdObject error: ".toList ++
    ("present but parse failed: ".toList ++ redactCreds before)), redactCreds after, ?_⟩
  intro pwd
  have hassoc : ∀ a b x y : Str, a ++ (b ++ (x ++ '\"' :: y)) = (a ++ (b ++ x)) ++ '\"' :: y := by
    intro a b x y
    rw [List.append_assoc, List.append_assoc]
  -- the quotation marks around the password separate it from the text before and after it
  rw [pwdText, withPwd, hprint, redactCreds_append hquote, redactCreds_append hquote, hassoc,
    redactCreds_append hquote, redactCreds_append hquote, redactCreds_redactCreds,
    redactCreds_redactCreds]

theorem pwdText_eq_iff {pre post : List (Str × Json)} {pwd₁ pwd₂ : Str} :
    pwdText pre post pwd₁ = pwdText pre post pwd₂ ↔
      redactCreds (Json.escape pwd₁) = redactCreds (Json.escape pwd₂) := by
  obtain ⟨before, after, htext⟩ := pwdText_split pre post
  rw [htext, htext]
  constructor
  · intro h
    have htail := List.append_cancel_left h
    exact List.append_cancel_right (List.cons.inj htail).2
  · intro h
    rw [h]

/-- **A password without `=` is logged as it is**: two of them are logged alike only if they are
equal. -/
theorem pwdText_injective {pre post : List (Str × Json)} {pwd₁ pwd₂ : Str} (h₁ : '=' ∉ pwd₁)
    (h₂ : '=' ∉ pwd₂) (h : pwdText pre post pwd₁ = pwdText pre post pwd₂) : pwd₁ = pwd₂ := by
  have hescape : '=' ∉ Json.escapeAlphabet := by decide
  have hplain : ∀ {pwd : Str}, '=' ∉ pwd → redactCreds (Json.escape pwd) = Json.escape pwd := by
    intro pwd hpwd
    apply redactCreds_of_not_mem
    -- an escape has no `=`
    intro hmem
    exact hpwd (Json.mem_of_mem_escape hescape hmem)
  rw [pwdText_eq_iff, hplain h₁, hplain h₂] at h
  exact Json.escape_injective h

/-- **Two rejected logins that differ in their passwords are logged alike if and only if the passwords
differ in values of a query**, each behind one of the keys with `=`, in the text of the JSON. -/
theorem loginError_eq_iff {pre post : List (Str × Json)} {pwd₁ pwd₂ : Str}
    (h₁ : LoginCmd.fromValue (withPwd pre post pwd₁) = none)
    (h₂ : LoginCmd.fromValue (withPwd pre post pwd₂) = none) :
    loginError isRelogin origin state (some (withPwd pre post pwd₁)) world =
        loginError isRelogin origin state (some (withPwd pre post pwd₂)) world ↔
      Relation.ReflTransGen ValueChanged (Json.escape pwd₁) (Json.escape pwd₂) := by
  rw [loginError_of_none h₁, loginError_of_none h₂, Option.some_inj, List.append_right_inj]
  exact pwdText_eq_iff.trans redactCreds_eq_iff

/-! ## A wrong port -/

/-- A login command whose port is a string. -/
def wrongPort (pwd : Str) : Json :=
  withPwd [("ip".toList, .string "192.168.1.10".toList)]
    [("usr".toList, .string "admin".toList), ("webPort".toList, .string "88".toList)] pwd

/-- A world that is not asked. -/
def silentWorld : World := ⟨none, none, fun _ => none, fun _ _ => false⟩

/-- Passwords that are masked are logged alike. -/
theorem loginError_eq_iff_masked :
    loginError false none ⟨.new, none, .new 11000 1, 0⟩ (some (wrongPort "pwd=1".toList))
        silentWorld =
      loginError false none ⟨.new, none, .new 11000 1, 0⟩ (some (wrongPort "pwd=2".toList))
        silentWorld := by
  have hkey : "pwd".toList ∈ credKeys := by decide
  have h₁ : IsValue ['1'] := isValue_singleton (by decide)
  have h₂ : IsValue ['2'] := isValue_singleton (by decide)
  have hchanged := ValueChanged.intro [] [] hkey h₁ h₂ fun d h => by cases h
  exact (loginError_eq_iff rfl rfl).mpr (.single hchanged)

/-- Other passwords are in the log. -/
theorem password_logged : ¬ ∀ (isRelogin : Bool) (origin : Option OriginInfo) (state : State)
    (world : World) (pre post : List (Str × Json)) (pwd₁ pwd₂ : Str),
    LoginCmd.fromValue (withPwd pre post pwd₁) = none →
    LoginCmd.fromValue (withPwd pre post pwd₂) = none →
    loginError isRelogin origin state (some (withPwd pre post pwd₁)) world =
      loginError isRelogin origin state (some (withPwd pre post pwd₂)) world := by
  intro h
  have heq := h false none ⟨.new, none, .new 11000 1, 0⟩ silentWorld
    [("ip".toList, .string "192.168.1.10".toList)]
    [("usr".toList, .string "admin".toList), ("webPort".toList, .string "88".toList)]
    "hunter2".toList "letmein".toList rfl rfl
  rw [loginError_of_none rfl, loginError_of_none rfl, Option.some_inj, List.append_right_inj] at heq
  have hpwd := pwdText_injective (by decide) (by decide) heq
  exact absurd hpwd (by decide)

end Login

end Fosipcore
