/-
  **Requests of the profile server** (`handleRequest`), and which of them bring it down.

  Nothing catches what `handleRequest` throws, so a request ends with one response or with an
  unhandled rejection.  What verification throws becomes a 400; a URL that does not parse, or
  a DID in the path or in the query that does not decode, is not caught.
-/
import WebOfTrust.ProfileServer

namespace WebOfTrust.ProfileRequests

open ProfileServer

/-! ## 1. `decodeURIComponent` -/

def hexValue (c : Char) : Option Nat :=
  if c.isDigit then some (c.toNat - '0'.toNat)
  else if 'a' ≤ c ∧ c ≤ 'f' then some (c.toNat - 'a'.toNat + 10)
  else if 'A' ≤ c ∧ c ≤ 'F' then some (c.toNat - 'A'.toNat + 10)
  else none

/-- The characters, and the octets that stand escaped. -/
def unescape : List Char → Option (List (Char ⊕ Nat))
  | [] => some []
  | '%' :: high :: low :: rest => do
    return .inr (16 * (← hexValue high) + (← hexValue low)) :: (← unescape rest)
  | '%' :: _ => none
  | c :: rest => return .inl c :: (← unescape rest)

/-- UTF-8, with the octets that are missing of a character, the least value that has as many
    octets, and the value so far. -/
def decodeOctets : Nat → Nat → Nat → List (Char ⊕ Nat) → Option (List Char)
  | 0, _, _, [] => some []
  | 0, _, _, .inl c :: rest => return c :: (← decodeOctets 0 0 0 rest)
  | 0, _, _, .inr octet :: rest =>
    if octet < 0x80 then return Char.ofNat octet :: (← decodeOctets 0 0 0 rest)
    else if octet < 0xC0 then none
    else if octet < 0xE0 then decodeOctets 1 0x80 (octet - 0xC0) rest
    else if octet < 0xF0 then decodeOctets 2 0x800 (octet - 0xE0) rest
    else if octet < 0xF8 then decodeOctets 3 0x10000 (octet - 0xF0) rest
    else none
  | n + 1, least, value, .inr octet :: rest =>
    let value := 64 * value + (octet - 0x80)
    if octet < 0x80 ∨ 0xC0 ≤ octet then none
    else if n ≠ 0 then decodeOctets n least value rest
    else if least ≤ value ∧ value.isValidChar then
      return Char.ofNat value :: (← decodeOctets 0 0 0 rest)
    else none
  | _, _, _, _ => none

def decodeURIComponent (text : String) : Option String := do
  return String.ofList (← decodeOctets 0 0 0 (← unescape text.toList))

example : decodeURIComponent "did%3Akey%3A%C3%A4" = some "did:key:ä" ∧
    decodeURIComponent "%E0%A4%A" = none ∧ decodeURIComponent "%C0%80" = none := by decide

def isWhitespace (c : Char) : Bool :=
  c ∈ [' ', '\t', '\n', '\r', '\u000b', '\u000c', '\u00a0', '\u1680', '\u2028', '\u2029', '\u202f',
    '\u205f', '\u3000', '\ufeff'] || ('\u2000' ≤ c && c ≤ '\u200a')

def trim (text : List Char) : List Char :=
  ((text.dropWhile isWhitespace).reverse.dropWhile isWhitespace).reverse

/-! ## 2. Requests -/

/-- What `new URL` makes of the request target. -/
structure Url where
  pathname : String
  /-- `searchParams.get('dids')`. -/
  dids : Option String

structure Request where
  method : String
  url : Option String
  /-- What `readBody` makes of the stream. -/
  body : Except String String

structure RequestEnvironment extends ServerEnvironment where
  parseUrl : String → Option Url
  memoryMB : Rat

structure ProfileSummary where
  did : Did
  name : Option String
  verificationCount : Nat
  attestationCount : Nat

structure ProfileStats where
  profileCount : Nat
  verificationCount : Nat
  attestationCount : Nat
  recentProfiles : List (Did × String)
  memoryMB : Rat

inductive Response where
  | noContent
  | dashboard
  | stats (stats : ProfileStats)
  | health
  | summaries (summaries : List ProfileSummary)
  | resource (response : ServerResponse)

structure Served where
  store : ProfileStore
  responses : List Response

/-- A handler: it writes responses, and may throw. -/
abbrev Handling := ExceptT String (StateM Served)

def respond (response : Response) : Handling Unit :=
  modify fun s => { s with responses := s.responses ++ [response] }

/-- `/^\/p\/([^/]+)(\/[va])?$/`. -/
def matchResource (pathname : String) : Option (String × ProfileServiceResourceKind) :=
  match pathname.toList with
  | '/' :: 'p' :: '/' :: rest =>
    match rest.splitOn '/' with
    | [c :: segment] => some (String.ofList (c :: segment), .profile)
    | [c :: segment, ['v']] => some (String.ofList (c :: segment), .verifications)
    | [c :: segment, ['a']] => some (String.ofList (c :: segment), .attestations)
    | _ => none
  | _ => none

/-- `didsParam.split(',')`, each part trimmed. -/
def splitDids (didsParam : String) : List String :=
  (didsParam.toList.splitOn ',').map fun part => String.ofList (trim part)

section

variable (env : RequestEnvironment)

def summaryName (payload : JsonRecord) : Option String :=
  let named : Option JsonValue → Option String
    | some (.object profile) =>
      match profile.lookup "name" with
      | some (.text name) => some name
      | _ => none
    | _ => none
  (named (payload.lookup "profile")).or <| match payload.lookup "name" with
    | some (.text name) => if name = "" then none else some name
    | _ => none

def listLength (field : String) (payload : JsonRecord) : Option Nat :=
  match payload.lookup field with
  | some (.array entries) => some entries.length
  | _ => none

def getSummaries (s : ProfileStore) (dids : List Did) : List ProfileSummary :=
  let payload kind did :=
    (s.getResource kind did).bind fun row => extractJwsPayload env.toServerEnvironment row.jws
  dids.map fun did =>
    { did := did
      name := (payload .profile did).bind summaryName
      verificationCount := ((payload .verifications did).bind (listLength "verifications")).getD 0
      attestationCount := ((payload .attestations did).bind (listLength "attestations")).getD 0 }

def getStats (s : ProfileStore) : ProfileStats where
  profileCount := (s.table .profile).rows.length
  verificationCount := (s.table .verifications).rows.length
  attestationCount := (s.table .attestations).rows.length
  recentProfiles :=
    (((s.table .profile).rows.mergeSort fun a b => decide (b.updatedAt ≤ a.updatedAt)).take 10).map
      fun row => (row.did, row.updatedAt)
  memoryMB := env.memoryMB

def handleSummaries (url : Url) : Handling Unit :=
  let refuse message := respond (.resource (.text 400 message))
  match url.dids with
  | none => refuse "Missing dids parameter"
  | some didsParam =>
    if didsParam = "" then refuse "Missing dids parameter"
    else
      match (splitDids didsParam).mapM decodeURIComponent with
      | none => throw "URI malformed"
      | some decoded =>
        let dids := decoded.filter (· ≠ "")
        if dids.length = 0 then refuse "Empty dids parameter"
        else if dids.length > 100 then refuse "Too many DIDs (max 100)"
        else do
          let s ← get
          respond (.summaries (getSummaries env s.store dids))

/-- What other handlers do to the store during the waits is `interim`. -/
def handlePut (did : Did) (kind : ProfileServiceResourceKind) (body : Except String String)
    (interim : ProfileStore → ProfileStore) (now : String) : Handling Unit :=
  match onBody env.toServerEnvironment did body with
  | .answered response => respond (.resource response)
  | .verifying body => do
    let s ← get
    let (response, store) :=
      compareAndStore env.toServerEnvironment (interim s.store) did kind body now
    set { s with store := store }
    respond (.resource response)
  | _ => throw "aborted"

def handleRequest (request : Request) (interim : ProfileStore → ProfileStore) (now : String) :
    Handling Unit :=
  let get? := request.method = "GET"
  if request.method = "OPTIONS" then respond .noContent
  else
    match env.parseUrl (request.url.getD "/") with
    | none => throw "Invalid URL"
    | some url =>
      if url.pathname = "/s" ∧ get? then handleSummaries env url
      else if url.pathname = "/dashboard" ∧ get? then respond .dashboard
      else if url.pathname = "/dashboard/data" ∧ get? then do
        let s ← get
        respond (.stats (getStats env s.store))
      else if url.pathname = "/health" ∧ get? then respond .health
      else
        match matchResource url.pathname with
        | none => respond (.resource (.text 404 "Not Found"))
        | some (segment, kind) =>
          match decodeURIComponent segment with
          | none => throw "URI malformed"
          | some did =>
            if get? then do
              let s ← get
              respond (.resource (handleGet s.store did kind))
            else if request.method = "PUT" then handlePut env did kind request.body interim now
            else respond (.resource (.text 405 "Method Not Allowed"))

def WellFormed (request : Request) : Prop :=
  request.method = "OPTIONS" ∨ ∃ url, env.parseUrl (request.url.getD "/") = some url ∧
    (request.method = "GET" → url.pathname = "/s" → ∀ didsParam ∈ url.dids,
      ∀ did ∈ splitDids didsParam, (decodeURIComponent did).isSome) ∧
    ∀ segment kind, matchResource url.pathname = some (segment, kind) →
      (decodeURIComponent segment).isSome ∧
      (request.method = "PUT" → ∃ body, request.body = .ok body)

end

/-! ## 3. One response, or none -/

def Answers (p : Handling Unit) : Prop :=
  ∀ s, ∃ s', p s = (.ok (), s') ∧ s'.responses.length = s.responses.length + 1

def Throws (p : Handling Unit) : Prop := ∀ s, ∃ message s', p s = (.error message, s')

variable {env : RequestEnvironment}

theorem answers_respond (response : Response) : Answers (respond response) := fun s =>
  ⟨{ s with responses := s.responses ++ [response] }, rfl, List.length_append⟩

theorem answers_respond_get (f : Served → Response) :
    Answers (do let s ← get; respond (f s)) := fun s => answers_respond (f s) s

theorem throws_throw (message : String) : Throws (throw message) := fun s => ⟨message, s, rfl⟩

theorem mapM_isSome {α β : Type} {f : α → Option β} {l : List α} :
    (l.mapM f).isSome ↔ ∀ a ∈ l, (f a).isSome := by
  induction l with
  | nil => simp
  | cons a l ih =>
    cases ha : f a with
    | none => simp [ha]
    | some b => cases hl : l.mapM f <;> simp_all

theorem handleSummaries_answers (url : Url) :
    (∀ didsParam ∈ url.dids, ∀ did ∈ splitDids didsParam, (decodeURIComponent did).isSome) ∧
      Answers (handleSummaries env url) ∨
    (∃ didsParam ∈ url.dids, ∃ did ∈ splitDids didsParam, ¬ (decodeURIComponent did).isSome) ∧
      Throws (handleSummaries env url) := by
  unfold handleSummaries
  rcases url.dids with _ | didsParam
  · exact .inl ⟨by simp, answers_respond _⟩
  dsimp only
  split_ifs with hempty
  · subst hempty
    exact .inl ⟨by decide, answers_respond _⟩
  cases hdecoded : (splitDids didsParam).mapM decodeURIComponent with
  | none =>
    have hsome : ¬ ∀ did ∈ splitDids didsParam, (decodeURIComponent did).isSome := by
      rw [← mapM_isSome, hdecoded]
      exact Bool.false_ne_true
    simp only [not_forall, exists_prop] at hsome
    exact .inr ⟨⟨didsParam, rfl, hsome⟩, throws_throw _⟩
  | some decoded =>
    refine .inl ⟨?_, ?_⟩
    · rintro _ ⟨⟩
      exact mapM_isSome.mp (by rw [hdecoded]; rfl)
    dsimp only
    split_ifs
    · exact answers_respond _
    · exact answers_respond _
    · exact answers_respond_get _

theorem handlePut_answers (did : Did) (kind : ProfileServiceResourceKind) (body : String)
    (interim : ProfileStore → ProfileStore) (now : String) :
    Answers (handlePut env did kind (.ok body) interim now) := by
  have hstage : (∃ response, onBody env.toServerEnvironment did (.ok body) = .answered response) ∨
      onBody env.toServerEnvironment did (.ok body) = .verifying body := by
    unfold onBody checkBody
    dsimp only
    split_ifs
    · exact .inl ⟨_, rfl⟩
    split
    · split_ifs
      · exact .inl ⟨_, rfl⟩
      · exact .inr rfl
    · exact .inr rfl
  unfold handlePut
  rcases hstage with ⟨response, hstage⟩ | hstage
  · rw [hstage]
    exact answers_respond _
  · rw [hstage]
    exact fun s => answers_respond _ { s with store := _ }

/-- **One response, or the end.**  A request is answered once if what it has decoded can be
    decoded, and otherwise it throws. -/
theorem handleRequest_answers (request : Request) (interim : ProfileStore → ProfileStore)
    (now : String) :
    WellFormed env request ∧ Answers (handleRequest env request interim now) ∨
    ¬ WellFormed env request ∧ Throws (handleRequest env request interim now) := by
  unfold handleRequest WellFormed
  by_cases hoptions : request.method = "OPTIONS"
  · exact .inl ⟨.inl hoptions, by rw [if_pos hoptions]; exact answers_respond _⟩
  simp only [hoptions, false_or, if_false]
  rcases env.parseUrl (request.url.getD "/") with _ | url
  · exact .inr ⟨by simp, throws_throw _⟩
  simp only [Option.some.injEq, exists_eq_left']
  by_cases hs : url.pathname = "/s" ∧ request.method = "GET"
  · rw [if_pos hs]
    have hnone : matchResource "/s" = none := by decide
    simp only [hs.1, hs.2, hnone, true_imp_iff, reduceCtorEq, false_imp_iff, implies_true, and_true]
    rcases @handleSummaries_answers env url with h | ⟨⟨didsParam, hd, did, hdid, hnot⟩, ht⟩
    · exact .inl h
    · exact .inr ⟨fun h => hnot (h didsParam hd did hdid), ht⟩
  rw [if_neg hs]
  have hquery : request.method = "GET" → url.pathname = "/s" → ∀ didsParam ∈ url.dids,
      ∀ did ∈ splitDids didsParam, (decodeURIComponent did).isSome :=
    fun hget hpath => absurd ⟨hpath, hget⟩ hs
  have hplain : ∀ path, matchResource path = none → url.pathname = path →
      ∀ segment kind, matchResource url.pathname = some (segment, kind) →
        (decodeURIComponent segment).isSome ∧
          (request.method = "PUT" → ∃ body, request.body = .ok body) := by
    rintro path hnone hpath segment kind hmatch
    rw [hpath, hnone] at hmatch
    cases hmatch
  by_cases hdashboard : url.pathname = "/dashboard" ∧ request.method = "GET"
  · rw [if_pos hdashboard]
    exact .inl ⟨⟨hquery, hplain _ (by decide) hdashboard.1⟩, answers_respond _⟩
  by_cases hdata : url.pathname = "/dashboard/data" ∧ request.method = "GET"
  · rw [if_neg hdashboard, if_pos hdata]
    exact .inl ⟨⟨hquery, hplain _ (by decide) hdata.1⟩, answers_respond_get _⟩
  by_cases hhealth : url.pathname = "/health" ∧ request.method = "GET"
  · rw [if_neg hdashboard, if_neg hdata, if_pos hhealth]
    exact .inl ⟨⟨hquery, hplain _ (by decide) hhealth.1⟩, answers_respond _⟩
  rw [if_neg hdashboard, if_neg hdata, if_neg hhealth]
  rcases matchResource url.pathname with _ | ⟨segment, kind⟩
  · exact .inl ⟨⟨hquery, nofun⟩, answers_respond _⟩
  dsimp only
  cases hdid : decodeURIComponent segment with
  | none =>
    refine .inr ⟨fun h => ?_, throws_throw _⟩
    have hsome := (h.2 segment kind rfl).1
    rw [hdid] at hsome
    cases hsome
  | some did =>
    have hdecodes : (decodeURIComponent segment).isSome := by rw [hdid]; rfl
    dsimp only
    split_ifs with hget hput
    · refine .inl ⟨⟨hquery, ?_⟩, answers_respond_get _⟩
      rintro _ _ ⟨⟩
      exact ⟨hdecodes, fun hput => absurd (hget.symm.trans hput) (by decide)⟩
    · cases hbody : request.body with
      | ok body =>
        refine .inl ⟨⟨hquery, ?_⟩, handlePut_answers _ _ _ _ _⟩
        rintro _ _ ⟨⟩
        exact ⟨hdecodes, fun _ => ⟨body, rfl⟩⟩
      | error message =>
        refine .inr ⟨fun h => ?_, throws_throw _⟩
        obtain ⟨body, hok⟩ := (h.2 segment kind rfl).2 hput
        cases hok
    · refine .inl ⟨⟨hquery, ?_⟩, answers_respond _⟩
      rintro _ _ ⟨⟩
      exact ⟨hdecodes, fun hput' => absurd hput' hput⟩

/-- **Which requests the server survives.** -/
theorem survives_iff (request : Request) (interim : ProfileStore → ProfileStore) (now : String)
    (store : ProfileStore) :
    (∃ s, handleRequest env request interim now ⟨store, []⟩ = (.ok (), s) ∧
      s.responses.length = 1) ↔ WellFormed env request := by
  rcases @handleRequest_answers env request interim now with ⟨hw, ha⟩ | ⟨hw, ht⟩
  · exact iff_of_true (ha ⟨store, []⟩) hw
  refine iff_of_false ?_ hw
  rintro ⟨s, hok, -⟩
  obtain ⟨message, s', herror⟩ := ht ⟨store, []⟩
  rw [herror] at hok
  cases hok

/-- `GET /p/%`, whose path does not decode. -/
theorem malformed_path_is_not_survived :
    ¬ ∀ (env : RequestEnvironment) (method : String) (url : Option String) (body : String)
      (interim : ProfileStore → ProfileStore) (now : String) (store : ProfileStore),
      ∃ s, handleRequest env ⟨method, url, .ok body⟩ interim now ⟨store, []⟩ = (.ok (), s) ∧
        s.responses.length = 1 := by
  intro hall
  let env : RequestEnvironment :=
    { threeVersions with parseUrl := fun raw => some ⟨raw, none⟩, memoryMB := 0 }
  obtain ⟨s, hok, -⟩ := hall env "GET" (some "/p/%") "" id "" .fresh
  have hthrows : (handleRequest env ⟨"GET", some "/p/%", .ok ""⟩ id "" ⟨.fresh, []⟩).1 =
      .error "URI malformed" := rfl
  rw [hok] at hthrows
  cases hthrows

end WebOfTrust.ProfileRequests
