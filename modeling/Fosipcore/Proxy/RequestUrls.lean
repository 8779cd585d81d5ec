import Fosipcore.Proxy.Redact

/-!
# Request URLs in the log

The proxy puts user name and password into the query of a request URL as they are, and logs the
URL with its values masked. A value is masked up to the first character that ends one, so what
the log shows of the credentials is what is left of them behind such a character.

## Main definitions

* `proxyCgiUrl`, `proxyCgiUsrUrl`, `proxyLoginUrl`, `proxySnapshotUrl`: the URLs of the requests
* `exposed`: the part of the credentials behind the first terminator

## Main results

* `redacted_urls_iff`: the credentials that are logged alike
* `changed_of_isValue`: credentials without a terminator are
-/

namespace Fosipcore

namespace Cgi

open Text Relation

/-- A request to the camera, with the key under which the user name is sent. -/
def requestUrl (path userKey : Str) (camera user pwd more : Str) : Str :=
  "http://".toList ++ camera ++ "/cgi-bin/".toList ++ path ++
    ('?' :: userKey ++ '=' :: user ++ "&pwd=".toList ++ pwd ++ more)

def proxyCgiUrl (camera user pwd cmd : Str) : Str :=
  requestUrl "CGIProxy.fcgi".toList "usrName".toList camera user pwd ("&cmd=".toList ++ cmd)

def proxyCgiUsrUrl (camera user pwd cmd : Str) : Str :=
  requestUrl "CGIProxy.fcgi".toList "usr".toList camera user pwd ("&cmd=".toList ++ cmd)

def proxyLoginUrl (camera user pwd : Str) : Str :=
  requestUrl "CGIProxy.fcgi".toList "usrName".toList camera user pwd
    "&cmd=logIn&privilege=2".toList

def proxySnapshotUrl (camera user pwd : Str) : Str :=
  requestUrl "snapPicture.jpg".toList "usr".toList camera user pwd []

/-- The credentials as they stand in a query, from the first character on that ends a value. -/
def exposed (user pwd : Str) : Str :=
  (user ++ "&pwd=".toList ++ pwd).dropWhile (· ∉ terminators)

variable {userKey more : Str}

/-- The parameters behind the credentials do not begin a value. -/
def FollowsQuery (more : Str) : Prop := more = [] ∨ ∃ rest, more = '&' :: rest

theorem redactCreds_append_more (hmore : FollowsQuery more) (s : Str) :
    redactCreds (s ++ more) = redactCreds s ++ redactCreds more := by
  have hamp : '&' ∈ terminators := by decide
  rcases hmore with rfl | ⟨rest, rfl⟩
  · rw [List.append_nil, redactCreds_nil, List.append_nil]
  · have hhead := redactCreds_append hamp [] rest
    rw [redactCreds_append hamp s rest, ← List.nil_append ('&' :: rest), hhead]
    rfl

/-- The password is behind a terminator. -/
theorem dropWhile_query (user pwd more : Str) :
    (user ++ "&pwd=".toList ++ pwd ++ more).dropWhile (· ∉ terminators) =
      exposed user pwd ++ more := by
  have hne : exposed user pwd ≠ [] := by
    intro hnil
    have hmem : '&' ∈ "&pwd=".toList := by decide
    have hall := List.dropWhile_eq_nil_iff.mp hnil '&'
      (List.mem_append_left pwd (List.mem_append_right user hmem))
    exact absurd hall (by decide)
  have hempty : ¬ (exposed user pwd).isEmpty = true := by rwa [List.isEmpty_iff]
  rw [List.dropWhile_append, ← exposed, if_neg hempty]

/-- The question mark belongs to what is before the query. -/
theorem query_assoc (before key user separator pwd more : Str) :
    before ++ ('?' :: key ++ '=' :: user ++ separator ++ pwd ++ more) =
      before ++ ['?'] ++ (key ++ '=' :: (user ++ separator ++ pwd ++ more)) := by
  simp only [List.append_assoc, List.cons_append, List.nil_append]

/-- **A logged request** shows what is exposed of the credentials, masked, and nothing else of
them. -/
theorem redactCreds_requestUrl (hkey : userKey ∈ credKeys) (hmore : FollowsQuery more)
    (path camera : Str) : ∃ masked, ∀ user pwd,
      redactCreds (requestUrl path userKey camera user pwd more) =
        masked ++ (redactCreds (exposed user pwd) ++ redactCreds more) := by
  obtain ⟨masked, hmasked⟩ := redactCreds_query hkey
    ("http://".toList ++ camera ++ "/cgi-bin/".toList ++ path ++ ['?'])
  refine ⟨masked, fun user pwd => ?_⟩
  have hquery := hmasked (user ++ "&pwd=".toList ++ pwd ++ more)
  rw [dropWhile_query, redactCreds_append_more hmore] at hquery
  have hurl := query_assoc ("http://".toList ++ camera ++ "/cgi-bin/".toList ++ path) userKey user
    "&pwd=".toList pwd more
  exact (congrArg redactCreds hurl).trans hquery

theorem redactCreds_requestUrl_eq_iff (hkey : userKey ∈ credKeys) (hmore : FollowsQuery more)
    (path camera user pwd user' pwd' : Str) :
    redactCreds (requestUrl path userKey camera user pwd more) =
        redactCreds (requestUrl path userKey camera user' pwd' more) ↔
      ReflTransGen ValueChanged (exposed user pwd) (exposed user' pwd') := by
  obtain ⟨masked, hmasked⟩ := redactCreds_requestUrl hkey hmore path camera
  rw [hmasked, hmasked, List.append_cancel_left_eq, List.append_cancel_right_eq,
    redactCreds_eq_iff]

/-- **The credentials that are logged alike**: all four requests look the same in the log if and
only if what is exposed of the one pair becomes what is exposed of the other by changes of
values. -/
theorem redacted_urls_iff (camera cmd user pwd user' pwd' : Str) :
    (redactCreds (proxyCgiUrl camera user pwd cmd) =
        redactCreds (proxyCgiUrl camera user' pwd' cmd) ∧
      redactCreds (proxyCgiUsrUrl camera user pwd cmd) =
        redactCreds (proxyCgiUsrUrl camera user' pwd' cmd) ∧
      redactCreds (proxyLoginUrl camera user pwd) =
        redactCreds (proxyLoginUrl camera user' pwd') ∧
      redactCreds (proxySnapshotUrl camera user pwd) =
        redactCreds (proxySnapshotUrl camera user' pwd')) ↔
      ReflTransGen ValueChanged (exposed user pwd) (exposed user' pwd') := by
  have husrName : "usrName".toList ∈ credKeys := by decide
  have husr : "usr".toList ∈ credKeys := by decide
  have hcmd : FollowsQuery ("&cmd=".toList ++ cmd) := Or.inr ⟨_, rfl⟩
  have hlogin : FollowsQuery "&cmd=logIn&privilege=2".toList := Or.inr ⟨_, rfl⟩
  have hnone : FollowsQuery [] := Or.inl rfl
  rw [proxyCgiUrl, proxyCgiUrl, proxyCgiUsrUrl, proxyCgiUsrUrl, proxyLoginUrl, proxyLoginUrl,
    proxySnapshotUrl, proxySnapshotUrl, redactCreds_requestUrl_eq_iff husrName hcmd,
    redactCreds_requestUrl_eq_iff husr hcmd, redactCreds_requestUrl_eq_iff husrName hlogin,
    redactCreds_requestUrl_eq_iff husr hnone, and_self, and_self, and_self]

/-- **Credentials without a terminator** are logged alike. -/
theorem changed_of_isValue {user pwd user' pwd' : Str} (huser : IsValue user) (hpwd : IsValue pwd)
    (huser' : IsValue user') (hpwd' : IsValue pwd') :
    ReflTransGen ValueChanged (exposed user pwd) (exposed user' pwd') := by
  have hexposed : ∀ {user pwd : Str}, IsValue user → exposed user pwd = "&pwd=".toList ++ pwd := by
    intro user pwd huser
    have hends : EndsValue ("&pwd=".toList ++ pwd) := by
      intro d hd
      obtain rfl := Option.some.inj hd
      decide
    rw [exposed, List.append_assoc, dropWhile_value huser hends]
  have hkey : "pwd".toList ∈ credKeys := by decide
  have hrest : EndsValue [] := fun d hd => by cases hd
  have hstep := ValueChanged.intro ['&'] [] hkey hpwd hpwd' hrest
  rw [List.append_nil, List.append_nil] at hstep
  rw [hexposed huser, hexposed huser']
  exact .single hstep

/-- The rest of a password with an ampersand is logged. -/
theorem redacted_url_exposes :
    redactCreds (proxyCgiUrl "10.0.0.7:88".toList "admin".toList "ab&cd".toList
        "getDevInfo".toList) ≠
      redactCreds (proxyCgiUrl "10.0.0.7:88".toList "admin".toList "ab".toList
        "getDevInfo".toList) := by
  decide +kernel

end Cgi

end Fosipcore
