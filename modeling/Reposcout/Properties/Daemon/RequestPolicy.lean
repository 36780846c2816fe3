import Reposcout.Daemon.RequestPolicy

/-!
# What the request policy lets through

A request that reaches its handler is addressed to an allowed host and presents the token.  The
check of its origin reads one header and passes over a value that it cannot decode, so a request
may carry an origin that is not allowed.
-/

namespace Reposcout.Daemon

open List Option

variable {http : HttpCrate} {policy : RequestPolicy} {request : Request} {loopback : Bool}

/-! ## What a request should satisfy -/

/-- The request is addressed to an allowed host: by its `Host` header, or without one by its URI. -/
def AuthorityAllowed (http : HttpCrate) (request : Request) (loopback : Bool) : Prop :=
  ∃ authority, allowedRequestHost http authority loopback ∧
    ((∃ value, request.headers.get "host" = some value ∧ http.toStr value = some authority) ∨
      (request.headers.get "host" = none ∧ request.uriAuthority = some authority))

/-- The value of an `Origin` header is an allowed origin. -/
def OriginAllowed (http : HttpCrate) (loopback : Bool) (value : List UInt8) : Prop :=
  ∃ origin, http.toStr value = some origin ∧ allowedOrigin http origin loopback

/-- The request presents a token: behind the scheme of its `Authorization` header, as its header of
that name, or as the first `token` parameter of the events of a loopback listener. -/
inductive TokenPresented (http : HttpCrate) (request : Request) (loopback : Bool)
    (token : String) : Prop
  | bearer {scheme : String} {value : List UInt8} {text : String}
      (hscheme : scheme = "Bearer " ∨ scheme = "bearer ")
      (hvalue : request.headers.get "authorization" = some value)
      (htext : http.toStr value = some text) (htoken : text.toList = scheme.toList ++ token.toList)
  | header {value : List UInt8} (hvalue : request.headers.get "x-reposcout-token" = some value)
      (htoken : http.toStr value = some token)
  | query {query : String} (hloopback : loopback) (hpath : request.uriPath = "/api/events")
      (hquery : request.uriQuery = some query)
      (htoken : (query.toList.splitOn '&').find? (fun pair => "token=".toList.isPrefixOf pair) =
        some ("token=".toList ++ token.toList))

/-- The token that the policy demands is presented. -/
def Authenticated (http : HttpCrate) (policy : RequestPolicy) (request : Request) : Prop :=
  ∀ token, policy.authToken = some token → TokenPresented http request policy.loopback token

def Names (host : String) (address : IpAddr) : Prop :=
  IpAddr.parse (trimBrackets host) = some address

/-- The policy lets a request through only as it should, and on a loopback listener it allows no
host and no origin that names another machine. -/
structure PolicyComplete (http : HttpCrate) (policy : RequestPolicy) (request : Request) :
    Prop where
  authority : enforceRequestPolicy http policy request = .next →
    AuthorityAllowed http request policy.loopback
  origins : enforceRequestPolicy http policy request = .next →
    ∀ value ∈ request.headers.getAll "origin", OriginAllowed http policy.loopback value
  token : enforceRequestPolicy http policy request = .next → Authenticated http policy request
  hosts : policy.loopback → ∀ value host address, allowedRequestHost http value true →
    http.authorityHost value = some host → Names host address → address.isLoopback
  originHosts : policy.loopback → ∀ value host address, allowedOrigin http value true →
    http.uriHost value = some (some host) → Names host address → address.isLoopback

/-! ## Hosts -/

/-- The two letters whose lower case is the first letter of `localhost`. -/
lemma eq_of_toLower_eq {c : Char} (h : c.toLower = 'l') : c = 'l' ∨ c = 'L' := by
  unfold Char.toLower at h
  split at h
  next hupper =>
    right
    have hval : (c.val + 32).toNat = 108 := congrArg (fun d : Char => d.val.toNat) h
    have hlast : c.val.toNat ≤ 90 := UInt32.le_iff_toNat_le.mp hupper.2
    rw [UInt32.toNat_add] at hval
    refine Char.ext (UInt32.toNat_inj.mp ?_)
    show c.val.toNat = 76
    simp only [UInt32.reduceToNat, Nat.reducePow] at hval
    omega
  · exact .inl h

/-- `localhost` is no text of an address, in whatever case it is written. -/
lemma not_names_of_isLocalhost {host : String} {address : IpAddr} (h : isLocalhost host) :
    ¬ Names host address := by
  rw [isLocalhost, decide_eq_true_eq, show "localhost".toList = 'l' :: "ocalhost".toList from rfl,
    map_eq_cons_iff] at h
  obtain ⟨first, rest, hhost, hfirst, hrest⟩ := h
  have hletter := eq_of_toLower_eq hfirst
  have hbracket : ¬ isBracket first := by
    rcases hletter with rfl | rfl <;> decide
  obtain ⟨more, hmore⟩ : ∃ more, trimBrackets host = first :: more := by
    rw [trimBrackets, hhost, dropWhile_cons_of_neg hbracket]
    exact ⟨_, trimEndMatches_cons_of_neg hbracket rest⟩
  rw [Names, hmore, IpAddr.parse_eq_none]
  · exact (some_ne_none address).symm
  all_goals rcases hletter with rfl | rfl <;> decide

lemma isLoopback_of_allowedNetworkHost {host : String} {address : IpAddr}
    (h : allowedNetworkHost host true) (hnames : Names host address) : address.isLoopback := by
  rw [allowedNetworkHost] at h
  split at h
  next hlocal => exact absurd hnames (not_names_of_isLocalhost hlocal)
  next =>
    rw [hnames] at h
    simpa using h

/-! ## The three checks -/

lemma authorityAllowed_iff :
    allowedRequestAuthority http request loopback ↔ AuthorityAllowed http request loopback := by
  rw [allowedRequestAuthority, AuthorityAllowed]
  cases request.headers.get "host" with
  | some value =>
    simp only [Option.any_eq_true, some.injEq, reduceCtorEq, false_and, or_false, exists_eq_left']
    exact exists_congr fun authority => and_comm
  | none =>
    simp only [Option.any_eq_true, reduceCtorEq, false_and, exists_false, true_and, false_or]
    exact exists_congr fun authority => and_comm

/-- A pair has the key `token` if it begins with it and the sign behind it. -/
lemma tokenOfPair_eq {pair : List Char} :
    ((splitOnce ['='] pair).bind fun parts =>
      if parts.1 = "token".toList then some parts.2 else none) = stripStart "token=" pair := by
  cases hstart : stripStart "token=" pair with
  | some value =>
    have hpair : pair = "token=".toList ++ value := stripStart_eq_some_iff.mp hstart
    obtain rfl : pair = "token".toList ++ '=' :: value := hpair
    rw [splitOnce_singleton (by decide), bind_some]
    exact if_pos rfl
  | none =>
    rw [stripStart_eq_none_iff] at hstart
    refine bind_eq_none_iff.mpr fun parts hparts => if_neg fun hkey => hstart ?_
    rw [eq_of_splitOnce hparts, hkey]
    exact prefix_append "token=".toList parts.2

lemma queryToken_eq_some_iff {query : String} {value : List Char} :
    queryToken query = some value ↔
      (query.toList.splitOn '&').find? (fun pair => "token=".toList.isPrefixOf pair) =
        some ("token=".toList ++ value) := by
  rw [queryToken]
  induction query.toList.splitOn '&' with
  | nil => exact iff_of_false (some_ne_none _).symm (some_ne_none _).symm
  | cons pair rest ih =>
    rw [findSome?_cons, tokenOfPair_eq, find?_cons]
    cases hstart : stripStart "token=" pair with
    | some found =>
      obtain rfl := stripStart_eq_some_iff.mp hstart
      have hstarts : "token=".toList.isPrefixOf ("token=".toList ++ found) :=
        isPrefixOf_iff_prefix.mpr (prefix_append _ _)
      rw [hstarts]
      simp
    | none =>
      have hstarts : "token=".toList.isPrefixOf pair = false :=
        Bool.eq_false_iff.mpr (mt isPrefixOf_iff_prefix.mp (stripStart_eq_none_iff.mp hstart))
      rw [hstarts]
      exact ih

lemma tokenPresented_iff {expected : String} :
    requestHasValidToken http request expected loopback ↔
      TokenPresented http request loopback expected := by
  rw [requestHasValidToken]
  constructor
  · intro h
    split at h
    next hbearer =>
      obtain ⟨text, hfirst, hscheme⟩ := bind_eq_some_iff.mp hbearer
      obtain ⟨value, hvalue, htext⟩ := bind_eq_some_iff.mp hfirst
      rcases or_eq_some_iff.mp hscheme with hupper | ⟨-, hlower⟩
      · exact .bearer (.inl rfl) hvalue htext (stripStart_eq_some_iff.mp hupper)
      · exact .bearer (.inr rfl) hvalue htext (stripStart_eq_some_iff.mp hlower)
    next =>
      split at h
      next hheader =>
        obtain ⟨value, hvalue, htext⟩ := bind_eq_some_iff.mp hheader
        exact .header hvalue htext
      next =>
        split at h
        next hevents =>
          rw [Bool.and_eq_true, decide_eq_true_eq] at hevents
          obtain ⟨query, hquery, htoken⟩ := bind_eq_some_iff.mp (of_decide_eq_true h)
          exact .query hevents.1 hevents.2 hquery (queryToken_eq_some_iff.mp htoken)
        · cases h
  · rintro (⟨hscheme, hvalue, htext, htoken⟩ | ⟨hvalue, htoken⟩ |
      ⟨hloopback, hpath, hquery, htoken⟩)
    · refine if_pos ?_
      rw [bearerToken, hvalue, bind_some, htext, bind_some, htoken]
      rcases hscheme with rfl | rfl
      · rw [stripStart_eq_some_iff.mpr rfl]
        rfl
      · rw [stripStart_eq_some_iff.mpr rfl, stripStart_eq_none_iff.mpr, none_or]
        exact fun hstarts => absurd (cons_prefix_cons.mp hstarts).1 (by decide)
    · split
      · rfl
      · rw [hvalue, bind_some, htoken, if_pos rfl]
    · split
      · rfl
      · split
        · rfl
        · rw [hloopback, hpath, hquery, bind_some, queryToken_eq_some_iff.mpr htoken]
          simp

lemma originRefused_iff : ((request.headers.get "origin").bind http.toStr).any
        (fun origin => !allowedOrigin http origin loopback) ↔
      ∃ value origin, request.headers.get "origin" = some value ∧
        http.toStr value = some origin ∧ ¬ allowedOrigin http origin loopback := by
  simp only [Option.any_eq_true, bind_eq_some_iff, Bool.not_eq_true', Bool.not_eq_true]
  constructor
  · rintro ⟨origin, ⟨value, hvalue, htext⟩, hrefused⟩
    exact ⟨value, origin, hvalue, htext, hrefused⟩
  · rintro ⟨value, origin, hvalue, htext, hrefused⟩
    exact ⟨origin, ⟨value, hvalue, htext⟩, hrefused⟩

/-- A request reaches its handler if all checks are passed. -/
lemma enforceRequestPolicy_eq_next_iff : enforceRequestPolicy http policy request = .next ↔
      AuthorityAllowed http request policy.loopback ∧
        (∀ value origin, request.headers.get "origin" = some value →
          http.toStr value = some origin → allowedOrigin http origin policy.loopback) ∧
        Authenticated http policy request := by
  rw [enforceRequestPolicy, ← authorityAllowed_iff]
  by_cases hauthority : allowedRequestAuthority http request policy.loopback
  · rw [hauthority, Bool.not_true, if_neg Bool.false_ne_true]
    split
    next hrefused =>
      obtain ⟨value, origin, hvalue, htext, hrefused⟩ := originRefused_iff.mp hrefused
      exact iff_of_false Verdict.noConfusion fun h => hrefused (h.2.1 value origin hvalue htext)
    next hpassed =>
      have hpassed : ∀ value origin, request.headers.get "origin" = some value →
          http.toStr value = some origin → allowedOrigin http origin policy.loopback :=
        fun value origin hvalue htext => by_contra fun hrefused =>
          hpassed (originRefused_iff.mpr ⟨value, origin, hvalue, htext, hrefused⟩)
      split
      next expected htoken =>
        split
        next hvalid =>
          refine iff_of_true rfl ⟨rfl, hpassed, fun token h => ?_⟩
          obtain rfl : expected = token := some.inj (htoken.symm.trans h)
          exact tokenPresented_iff.mp hvalid
        next hinvalid =>
          exact iff_of_false Verdict.noConfusion fun h =>
            hinvalid (tokenPresented_iff.mpr (h.2.2 expected htoken))
      next htoken =>
        exact iff_of_true rfl ⟨rfl, hpassed, fun token h =>
          absurd (htoken.symm.trans h) (some_ne_none token).symm⟩
  · rw [Bool.eq_false_iff.mpr hauthority, Bool.not_false, if_pos rfl]
    exact iff_of_false Verdict.noConfusion fun h => Bool.false_ne_true h.1

/-! ## When the policy is complete -/

/-- The policy is complete for a request exactly if the first of its `Origin` headers can be
decoded and the others are allowed where it is, unless the request is refused for its host or for
its token. -/
theorem policyComplete_iff (http : HttpCrate) (policy : RequestPolicy) (request : Request) :
    PolicyComplete http policy request ↔
      (AuthorityAllowed http request policy.loopback → Authenticated http policy request →
        ∀ first rest, request.headers.getAll "origin" = first :: rest →
          ∃ origin, http.toStr first = some origin ∧ (allowedOrigin http origin policy.loopback →
              ∀ value ∈ rest, OriginAllowed http policy.loopback value)) := by
  constructor
  · intro h hauthority htoken first rest horigins
    have hget : request.headers.get "origin" = some first := by
      rw [HeaderMap.get, horigins, head?_cons]
    -- The request reaches its handler unless its first origin is refused.
    have hcomplete (hfirst : ∀ origin, http.toStr first = some origin →
        allowedOrigin http origin policy.loopback) :
        ∀ value ∈ first :: rest, OriginAllowed http policy.loopback value := by
      rw [← horigins]
      refine h.origins (enforceRequestPolicy_eq_next_iff.mpr ⟨hauthority, ?_, htoken⟩)
      intro value origin hvalue htext
      obtain rfl : first = value := some.inj (hget.symm.trans hvalue)
      exact hfirst origin htext
    cases htext : http.toStr first with
    | none =>
      obtain ⟨origin, horigin, -⟩ := hcomplete
        (fun origin horigin => absurd (htext.symm.trans horigin) (some_ne_none _).symm)
        first mem_cons_self
      exact absurd (htext.symm.trans horigin) (some_ne_none _).symm
    | some origin =>
      refine ⟨origin, rfl, fun hallowed value hvalue => ?_⟩
      refine hcomplete (fun other hother => ?_) value (mem_cons_of_mem first hvalue)
      obtain rfl : origin = other := some.inj (htext.symm.trans hother)
      exact hallowed
  · intro h
    refine ⟨fun hnext => (enforceRequestPolicy_eq_next_iff.mp hnext).1, ?_,
      fun hnext => (enforceRequestPolicy_eq_next_iff.mp hnext).2.2, ?_, ?_⟩
    · intro hnext value hvalue
      obtain ⟨hauthority, hpassed, htoken⟩ := enforceRequestPolicy_eq_next_iff.mp hnext
      obtain ⟨first, rest, horigins⟩ := exists_cons_of_ne_nil (ne_nil_of_mem hvalue)
      have hget : request.headers.get "origin" = some first := by
        rw [HeaderMap.get, horigins, head?_cons]
      obtain ⟨origin, htext, hrest⟩ := h hauthority htoken first rest horigins
      have hallowed := hpassed first origin hget htext
      rw [horigins, mem_cons] at hvalue
      rcases hvalue with rfl | hvalue
      · exact ⟨origin, htext, hallowed⟩
      · exact hrest hallowed value hvalue
    · intro _ value host address hallowed hhost hnames
      rw [allowedRequestHost, hhost] at hallowed
      exact isLoopback_of_allowedNetworkHost hallowed hnames
    · intro _ value host address hallowed hhost hnames
      rw [allowedOrigin, hhost] at hallowed
      exact isLoopback_of_allowedNetworkHost hallowed hnames

/-! ## A page of another origin -/

/-- The `http` crate on texts that consist of a host and a port, and on visible ASCII. -/
def plainHttp : HttpCrate where
  toStr bytes :=
    if bytes.all fun byte => (32 ≤ byte && byte < 127) || byte = 9 then
      some (String.ofList (bytes.map fun byte => Char.ofNat byte.toNat))
    else none
  authorityHost text := some (String.ofList (text.toList.takeWhile (· ≠ ':')))
  uriHost text := (stripStart "http://" text.toList).map fun rest =>
    some (String.ofList (rest.takeWhile (· ≠ ':')))

/-- A request to the daemon from the page `http://é.example`, whose header is not ASCII. -/
def foreignRequest : Request where
  uriAuthority := none
  uriPath := "/api/snapshot"
  uriQuery := none
  headers :=
    [("host", "127.0.0.1:7331".toUTF8.toList), ("origin", "http://é.example".toUTF8.toList)]

/-- The origin is not checked, and the request reaches its handler. -/
theorem foreignRequest_not_complete :
    ¬ PolicyComplete plainHttp { loopback := true, authToken := none } foreignRequest := by
  intro h
  have hnext : enforceRequestPolicy plainHttp { loopback := true, authToken := none }
      foreignRequest = .next := by decide +kernel
  obtain ⟨origin, htext, -⟩ := h.origins hnext "http://é.example".toUTF8.toList (by decide +kernel)
  have hnone : plainHttp.toStr "http://é.example".toUTF8.toList = none := by decide +kernel
  exact absurd (hnone.symm.trans htext) (some_ne_none origin).symm

end Reposcout.Daemon
