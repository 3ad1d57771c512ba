import Mathlib

namespace Fundex

/-- Modelled from the documentation of the `http` crate, whose source is not in the repository:
a `HeaderMap`, as its entries in insertion order under lower-case names. -/
structure HeaderMap where
  entries : List (String × String)

namespace HeaderMap

/-- `HeaderMap::new()` and `HeaderMap::default()`. -/
def empty : HeaderMap := ⟨[]⟩

/-- `get`: the first value of the name. -/
def get (m : HeaderMap) (name : String) : Option String :=
  (m.entries.find? fun e => e.1 = name).map Prod.snd

/-- `insert`: the value replaces every value the name had. -/
def insert (m : HeaderMap) (name value : String) : HeaderMap :=
  ⟨m.entries.filter (fun e => e.1 ≠ name) ++ [(name, value)]⟩

/-- `entry(name).or_insert(value)`: the value is added only when the name has none. -/
def orInsert (m : HeaderMap) (name value : String) : HeaderMap :=
  match m.get name with
  | some _ => m
  | none => ⟨m.entries ++ [(name, value)]⟩

/-- `extend` with another map: each name of `other` takes the values `other` has for it. -/
def extend (m other : HeaderMap) : HeaderMap :=
  ⟨m.entries.filter (fun e => (other.get e.1).isNone) ++ other.entries⟩

@[simp] theorem get_empty (name : String) : empty.get name = none := rfl

theorem get_filter {m : HeaderMap} {q : String × String → Bool} {name : String}
    (h : ∀ e : String × String, e.1 = name → q e) :
    get ⟨m.entries.filter q⟩ name = m.get name := by
  simp only [get, List.find?_filter]
  congr 2
  funext e
  by_cases he : e.1 = name <;> simp [he, h e]

theorem get_filter_eq_none {m : HeaderMap} {q : String × String → Bool} {name : String}
    (h : ∀ e : String × String, e.1 = name → q e = false) :
    get ⟨m.entries.filter q⟩ name = none := by
  simp only [get, Option.map_eq_none', List.find?_eq_none, List.mem_filter, decide_eq_true_eq]
  exact fun e he hn => by simp [h e hn] at he

theorem get_append (m : HeaderMap) (l : List (String × String)) (name : String) :
    get ⟨m.entries ++ l⟩ name = (m.get name).or (get ⟨l⟩ name) := by
  simp only [get, List.find?_append, Option.map_or']

@[simp] theorem get_insert (m : HeaderMap) (name value name' : String) :
    (m.insert name value).get name' = if name' = name then some value else m.get name' := by
  rw [insert, get_append]
  split
  · subst name'
    rw [get_filter_eq_none (by intro e he; simp [he])]
    simp [get]
  · next h =>
    rw [get_filter (by intro e he; simpa [he] using h)]
    simp [get, Ne.symm h]

theorem get_orInsert (m : HeaderMap) (name value name' : String) :
    (m.orInsert name value).get name' =
      (m.get name').or (if name' = name then some value else none) := by
  unfold orInsert
  cases hv : m.get name with
  | some v => by_cases h : name' = name <;> simp [h, hv]
  | none =>
    rw [get_append]
    by_cases h : name' = name
    · simp [h, hv, get]
    · simp [h, get, Ne.symm h]

@[simp] theorem get_extend (m other : HeaderMap) (name : String) :
    (m.extend other).get name = (other.get name).or (m.get name) := by
  rw [extend, get_append]
  cases ho : other.get name with
  | some v => rw [get_filter_eq_none (by intro e he; simp [he, ho])]; rfl
  | none => rw [get_filter (by intro e he; simp [he, ho])]; simp [ho]

end HeaderMap

/-! ## Requests -/

/-- `MAX_SINGLE_CHUNK`: the longest request sent without `transfer-encoding: chunked`. -/
def maxSingleChunk : Nat := 256

/-- The headers `send_request` puts on a request whose body is `len` bytes long, for a transport
that holds `headers`. -/
def requestHeaders (headers : Option HeaderMap) (len : Nat) : HeaderMap :=
  let req :=
    (HeaderMap.empty.insert "content-type" "application/json").insert "user-agent" "web3.rs"
  let req := if len < maxSingleChunk then req.insert "content-length" (toString len) else req
  match headers with
  | some headers => req.extend headers
  | none => req

theorem requestHeaders_get (headers : Option HeaderMap) (len : Nat) (name : String) :
    (requestHeaders headers len).get name =
      (headers.bind fun h => h.get name).or
        (if name = "user-agent" then some "web3.rs"
          else if name = "content-type" then some "application/json"
          else if name = "content-length" ∧ len < maxSingleChunk then some (toString len)
          else none) := by
  unfold requestHeaders
  by_cases hl : len < maxSingleChunk <;> by_cases hc : name = "content-length" <;>
    cases headers <;> simp [hl, hc]

/-! ## Basic authentication -/

/-- The headers `with_event_loop_internal` keeps for the transport, from the user name and the
password of its URL and the headers it was given. `basicAuthValue` is
`HeaderValue::from_str(&format!("Basic {}", base64::encode(&basic_auth)))`, from crates that are
not in the repository: its error stops the construction of the transport. -/
def transportHeaders (basicAuthValue : String → Except String String) (username : String)
    (password : Option String) (headers : Option HeaderMap) : Except String (Option HeaderMap) :=
  let basicAuth := username ++ ":" ++ password.getD ""
  if basicAuth ≠ ":" then
    (basicAuthValue basicAuth).map fun value =>
      some ((headers.getD .empty).orInsert "authorization" value)
  else .ok headers

theorem basicAuth_eq_colon {username password : String} :
    username ++ ":" ++ password = ":" ↔ username = "" ∧ password = "" := by
  constructor
  · intro h
    have hl := congrArg (fun s => s.data.length) h
    have hc : (":" : String).data.length = 1 := rfl
    simp only [String.data_append, List.length_append, hc] at hl
    exact ⟨String.ext (List.eq_nil_of_length_eq_zero (by omega)),
      String.ext (List.eq_nil_of_length_eq_zero (by omega))⟩
  · rintro ⟨rfl, rfl⟩
    rfl

theorem transportHeaders_get {basicAuthValue : String → Except String String} {username : String}
    {password : Option String} {headers result : Option HeaderMap}
    (h : transportHeaders basicAuthValue username password headers = .ok result) (name : String) :
    (result.bind fun m => m.get name) =
      (headers.bind fun m => m.get name).or
        (if name = "authorization" ∧ (username ≠ "" ∨ password.getD "" ≠ "") then
          (basicAuthValue (username ++ ":" ++ password.getD "")).toOption
        else none) := by
  simp only [transportHeaders] at h
  split at h
  · next hcred =>
    have hcred' : username ≠ "" ∨ password.getD "" ≠ "" :=
      not_and_or.mp (mt basicAuth_eq_colon.mpr hcred)
    cases hv : basicAuthValue (username ++ ":" ++ password.getD "") with
    | error e => simp [hv, Except.map] at h
    | ok value =>
      simp only [hv, Except.map, Except.ok.injEq] at h
      subst h
      by_cases hn : name = "authorization" <;> cases headers <;>
        simp [HeaderMap.get_orInsert, hn, hcred', hv, Except.toOption]
  · next hcred =>
    cases h
    have hc := basicAuth_eq_colon.mp (not_not.mp hcred)
    simp [hc]

theorem transportHeaders_get_user :
    transportHeaders .ok "user" (some "pw") none =
        .ok (some ⟨[("authorization", "user:pw")]⟩) ∧
      ((some (⟨[("authorization", "user:pw")]⟩ : HeaderMap)).bind fun m =>
          m.get "authorization") =
        ((none : Option HeaderMap).bind fun m => m.get "authorization").or
          (if "authorization" = "authorization" ∧
              ("user" ≠ "" ∨ (some "pw").getD "" ≠ "") then
            (Except.ok ("user" ++ ":" ++ (some "pw").getD "") : Except String String).toOption
          else none) :=
  ⟨rfl, @transportHeaders_get Except.ok "user" (some "pw") none
    (some ⟨[("authorization", "user:pw")]⟩) rfl "authorization"⟩

end Fundex
