import MMRelay.Session.Store
import MMRelay.Matrix.BotUser

/-!
# The session over restarts

The start of the Matrix client from `credentials.json`: what `_resolve_and_load_credentials`
(`matrix/credentials.py`) reads from the file, and `_perform_matrix_login` (`matrix/auth.py`), which
asks the server for what is missing and saves it.

* `readAuth`, `performMatrixLogin`, `restart`: the code;
* `Answer`, `Clean`: what the server says, and that it is taken as it is;
* `settled`: the session that the credentials and the server determine;
* **`session_kept`**: it is restored at every restart, whatever fails short of a torn file;
* `portUser_renamed`: a user whose server has a port is not.
-/

namespace MMRelay.Session

section Model

variable (u : Urls)

/-- `_normalize_bot_user_id`. -/
def normalizeUser (homeserver raw : String) : Except PyErr (Option String) :=
  (Matrix.normalizeBotUserId u homeserver.toList (some raw.toList)).map (Option.map String.ofList)

/-- `_first_nonblank_str` of the two keys of the user. -/
def rawUserId (kvs : List (String × Py)) : Option String :=
  (nonBlank ((Py.dict kvs).field "user_id")).or (nonBlank ((Py.dict kvs).field "bot_user_id"))

/-- `MatrixAuthInfo`, from credentials in a file. -/
structure Auth where
  homeserver : String
  accessToken : String
  userId : String
  deviceId : Option String
  credentials : List (String × Py)

/-- The user of the credentials. -/
def readUser (homeserver : String) (kvs : List (String × Py)) : Except PyErr String :=
  match rawUserId kvs with
  | none => .ok ""
  | some raw => (normalizeUser u homeserver raw).map fun user => user.getD ""

/-- What `_resolve_and_load_credentials` makes of the credentials. -/
def readAuth (kvs : List (String × Py)) : Except PyErr (Option Auth) :=
  match (Py.dict kvs).field "homeserver", (Py.dict kvs).field "access_token" with
  | .str homeserver, .str accessToken =>
    if hasRequired kvs then
      (readUser u homeserver kvs).map fun userId =>
        some ⟨homeserver, accessToken, userId, nonBlank ((Py.dict kvs).field "device_id"), kvs⟩
    else .ok none
  | _, _ => .ok none

/-- What `whoami` says. -/
structure Answer where
  userId : Option String
  deviceId : Option String

/-- What `restore_login` is called with. -/
structure Login where
  homeserver : String
  userId : String
  deviceId : String
  accessToken : String
  deriving DecidableEq

/-- What is known after the server has said `new`, which may be empty. -/
def discovered (new old : Option String) : Option String :=
  match new with
  | some v => if v = "" then old else some v
  | none => old

/-- The login with a user and a device, if there are both. -/
def Auth.login (auth : Auth) (userId : String) (deviceId : Option String) : Option Login :=
  match deviceId with
  | some device =>
    if userId = "" then none else some ⟨auth.homeserver, userId, device, auth.accessToken⟩
  | none => none

/-- The user and the device, with what the server has said. -/
def Auth.merged (auth : Auth) (a : Answer) : String × Option String :=
  ((discovered a.userId (some auth.userId)).getD "", discovered a.deviceId auth.deviceId)

/-- The credentials with the user, if it is new. -/
def Auth.withUser (auth : Auth) (userId : String) : List (String × Py) :=
  if userId = auth.userId then auth.credentials
  else dictSet auth.credentials "user_id" (.str userId)

/-- The credentials with what the server has said that is new. -/
def Auth.updated (auth : Auth) (a : Answer) : List (String × Py) :=
  match (auth.merged a).2 with
  | none => auth.withUser (auth.merged a).1
  | some device =>
    if some device = auth.deviceId then auth.withUser (auth.merged a).1
    else dictSet (auth.withUser (auth.merged a).1) "device_id" (.str device)

/-- `_perform_matrix_login` with credentials from a file: what it restores, and what it saves. No
answer is a failure of `whoami`. -/
def performMatrixLogin (auth : Auth) (answer : Option Answer) :
    Option Login × Option (List (String × Py)) :=
  match auth.login auth.userId auth.deviceId with
  | some login => (some login, none)
  | none =>
    match answer with
    | none => (none, none)
    | some a =>
      if auth.merged a = (auth.userId, auth.deviceId) then (none, none)
      else (auth.login (auth.merged a).1 (auth.merged a).2, some (auth.updated a))

/-- A start of the client; an error of the save is caught. -/
def restart (site : Site) (answer : Option Answer) (outcome : Outcome) (d : Disk) :
    Disk × Option Login :=
  match loadCredentials site d with
  | none => (d, none)
  | some kvs =>
    match readAuth u kvs with
    | .error _ | .ok none => (d, none)
    | .ok (some auth) =>
      match performMatrixLogin auth answer with
      | (login, none) => (d, login)
      | (login, some kvs') => ((saveCredentials site d kvs' outcome).1, login)

/-- Restarts at which the server is heard or not, and the saves end in some way; with the logins. -/
def restarts (site : Site) (a : Answer) : List (Bool × Outcome) → Disk → Disk × List Login
  | [], d => (d, [])
  | (heard, outcome) :: rest, d =>
    let first := restart u site (if heard then some a else none) outcome d
    let later := restarts site a rest first.1
    (later.1, first.2.toList ++ later.2)

/-- The names that the server gives have no blanks around them, and the user's is in normal form. -/
structure Clean (a : Answer) (homeserver : String) : Prop where
  userId : ∀ v, a.userId = some v → v ≠ "" → strip v = v ∧ normalizeUser u homeserver v = .ok (some v)
  deviceId : ∀ v, a.deviceId = some v → v ≠ "" → strip v = v

end Model

/-- The session that the credentials and the server determine. -/
def settled (auth : Auth) (a : Answer) : Option Login := (performMatrixLogin auth (some a)).1

/-! ## What is read back -/

variable {u : Urls} {a : Answer} {auth : Auth} {kvs : List (String × Py)}

theorem field_dictSet (kvs : List (String × Py)) (key : String) (value : Py) (other : String) :
    (Py.dict (dictSet kvs key value)).field other =
      if other = key then value else (Py.dict kvs).field other := by
  simp only [Py.field, Py.key?, lookup_dictSet]
  split_ifs <;> rfl

theorem field_withDevice {other : String} (h : other ≠ "device_id") :
    (Py.dict (withDevice kvs)).field other = (Py.dict kvs).field other := by
  unfold withDevice
  split_ifs
  · rfl
  · rw [field_dictSet, if_neg h]

theorem device_withDevice :
    nonBlank ((Py.dict (withDevice kvs)).field "device_id") =
      nonBlank ((Py.dict kvs).field "device_id") := by
  unfold withDevice
  split_ifs with h
  · rfl
  · rw [field_dictSet, if_pos rfl]
    rw [Option.not_isSome_iff_eq_none] at h
    rw [h]
    rfl

theorem hasRequired_congr {kvs' : List (String × Py)}
    (h : ∀ key ∈ requiredCredentialsKeys, (Py.dict kvs').field key = (Py.dict kvs).field key) :
    hasRequired kvs' = hasRequired kvs := by
  simp only [requiredCredentialsKeys, List.forall_mem_cons, List.not_mem_nil] at h
  simp [hasRequired, requiredCredentialsKeys, h.1, h.2.1]

/-- Credentials that can be used, and what is made of them. -/
structure Reads (u : Urls) (kvs : List (String × Py)) (auth : Auth) : Prop where
  homeserver : (Py.dict kvs).field "homeserver" = .str auth.homeserver
  accessToken : (Py.dict kvs).field "access_token" = .str auth.accessToken
  required : hasRequired kvs = true
  userId : readUser u auth.homeserver kvs = .ok auth.userId
  deviceId : nonBlank ((Py.dict kvs).field "device_id") = auth.deviceId
  credentials : auth.credentials = kvs

theorem readAuth_iff : readAuth u kvs = .ok (some auth) ↔ Reads u kvs auth := by
  unfold readAuth
  constructor
  · intro h
    split at h
    · next hs token hhs htoken =>
      split_ifs at h with hrequired
      · obtain ⟨user, huser, hauth⟩ := except_map_eq_ok.mp h
        cases hauth
        exact ⟨hhs, htoken, hrequired, huser, rfl, rfl⟩
      · cases h
    · cases h
  · rintro ⟨hhs, htoken, hrequired, huser, hdevice, hkvs⟩
    rw [hhs, htoken]
    dsimp only
    rw [if_pos hrequired, huser, hdevice, ← hkvs]
    rfl

theorem readUser_congr {homeserver : String} {kvs' : List (String × Py)}
    (h : (Py.dict kvs').field "user_id" = (Py.dict kvs).field "user_id")
    (hbot : (Py.dict kvs').field "bot_user_id" = (Py.dict kvs).field "bot_user_id") :
    readUser u homeserver kvs' = readUser u homeserver kvs := by
  rw [readUser, rawUserId, h, hbot]
  rfl

theorem readUser_of_clean {homeserver user : String}
    (hfield : (Py.dict kvs).field "user_id" = .str user) (hne : user ≠ "") (hstrip : strip user = user)
    (hnormal : normalizeUser u homeserver user = .ok (some user)) :
    readUser u homeserver kvs = .ok user := by
  have hraw : rawUserId kvs = some user := by
    simp [rawUserId, hfield, nonBlank, hstrip, hne]
  rw [readUser, hraw]
  dsimp only
  rw [hnormal]
  rfl

/-! ## What the server has said -/

/-- The server says something, or leaves what was known. -/
theorem discovered_cases (new : Option String) :
    (∀ old, discovered new old = old) ∨
      ∃ v, new = some v ∧ v ≠ "" ∧ ∀ old, discovered new old = some v := by
  cases new with
  | none => exact .inl fun _ => rfl
  | some v =>
    by_cases hempty : v = ""
    · exact .inl fun _ => if_pos hempty
    · exact .inr ⟨v, rfl, hempty, fun _ => if_neg hempty⟩

theorem field_withUser {userId key : String} :
    (Py.dict (auth.withUser userId)).field key =
      if key = "user_id" ∧ userId ≠ auth.userId then .str userId
      else (Py.dict auth.credentials).field key := by
  unfold Auth.withUser
  split_ifs with hsame hnew hnew
  · exact absurd hsame hnew.2
  · rfl
  · rw [field_dictSet, if_pos hnew.1]
  · rw [field_dictSet, if_neg fun hkey => hnew ⟨hkey, hsame⟩]

theorem field_updated {key : String} (hdevice : key ≠ "device_id") :
    (Py.dict (auth.updated a)).field key =
      (Py.dict (auth.withUser (auth.merged a).1)).field key := by
  unfold Auth.updated
  split
  · rfl
  · split_ifs
    · rfl
    · rw [field_dictSet, if_neg hdevice]

theorem device_updated (h : Reads u kvs auth) (hclean : Clean u a auth.homeserver) :
    nonBlank ((Py.dict (auth.updated a)).field "device_id") = (auth.merged a).2 := by
  have hold : nonBlank ((Py.dict (auth.withUser (auth.merged a).1)).field "device_id") =
      auth.deviceId := by
    rw [field_withUser, if_neg (by simp), h.credentials]
    exact h.deviceId
  rcases discovered_cases a.deviceId with hnothing | ⟨device, hdevice, hne, hall⟩
  · -- the device is the one that was known
    have hmerged : (auth.merged a).2 = auth.deviceId := hnothing _
    rw [hmerged, ← hold]
    unfold Auth.updated
    rw [hmerged]
    cases auth.deviceId with
    | none => rfl
    | some device =>
      dsimp only
      rw [if_pos rfl]
  · have hmerged : (auth.merged a).2 = some device := hall _
    unfold Auth.updated
    rw [hmerged]
    dsimp only
    split_ifs with hknown
    · rw [hold, hknown]
    · rw [field_dictSet, if_pos rfl]
      simp [nonBlank, hclean.deviceId device hdevice hne, hne]

theorem readUser_updated (h : Reads u kvs auth) (hclean : Clean u a auth.homeserver) :
    readUser u auth.homeserver (auth.updated a) = .ok (auth.merged a).1 := by
  have hbot : (Py.dict (auth.updated a)).field "bot_user_id" =
      (Py.dict kvs).field "bot_user_id" := by
    rw [field_updated (by decide), field_withUser, if_neg (by simp), h.credentials]
  have huser : (Py.dict (auth.updated a)).field "user_id" =
      if (auth.merged a).1 ≠ auth.userId then .str (auth.merged a).1
      else (Py.dict kvs).field "user_id" := by
    rw [field_updated (by decide), field_withUser, h.credentials]
    simp
  by_cases hnew : (auth.merged a).1 = auth.userId
  · rw [if_neg (not_not.mpr hnew)] at huser
    rw [readUser_congr huser hbot, h.userId, hnew]
  · rw [if_pos hnew] at huser
    have hmerged : (auth.merged a).1 = (discovered a.userId (some auth.userId)).getD "" := rfl
    rcases discovered_cases a.userId with hnothing | ⟨user, hsaid, hne, hall⟩
    · exact absurd (by rw [hmerged, hnothing, Option.getD_some]) hnew
    · rw [hall, Option.getD_some] at hmerged
      rw [hmerged] at huser ⊢
      obtain ⟨hstrip, hnormal⟩ := hclean.userId user hsaid hne
      exact readUser_of_clean huser hne hstrip hnormal

theorem reads_updated (h : Reads u kvs auth) (hclean : Clean u a auth.homeserver) :
    hasRequired (auth.updated a) = true ∧ Reads u (withDevice (auth.updated a))
      { auth with
        userId := (auth.merged a).1
        deviceId := (auth.merged a).2
        credentials := withDevice (auth.updated a) } := by
  have hfield {key : String} (hdevice : key ≠ "device_id") (huser : key ≠ "user_id") :
      (Py.dict (auth.updated a)).field key = (Py.dict kvs).field key := by
    rw [field_updated hdevice, field_withUser, if_neg fun hand => huser hand.1, h.credentials]
  have hrequired : hasRequired (auth.updated a) = true := by
    rw [← h.required]
    refine hasRequired_congr fun key hkey => ?_
    simp only [requiredCredentialsKeys, List.mem_cons, List.not_mem_nil, or_false] at hkey
    rcases hkey with rfl | rfl
    · exact hfield (by decide) (by decide)
    · exact hfield (by decide) (by decide)
  refine ⟨hrequired, ?_, ?_, ?_, ?_, ?_, rfl⟩
  · rw [field_withDevice (by decide), hfield (by decide) (by decide), h.homeserver]
  · rw [field_withDevice (by decide), hfield (by decide) (by decide), h.accessToken]
  · rw [← hrequired]
    refine hasRequired_congr fun key hkey => field_withDevice ?_
    rintro rfl
    simp [requiredCredentialsKeys] at hkey
  · rw [readUser_congr (field_withDevice (by decide)) (field_withDevice (by decide))]
    exact readUser_updated h hclean
  · rw [device_withDevice]
    exact device_updated h hclean

/-! ## Restarts -/

/-- The user and the device that are known, or else those that the server completes. -/
theorem settled_eq (auth : Auth) (a : Answer) : settled auth a =
    (auth.login auth.userId auth.deviceId).or (auth.login (auth.merged a).1 (auth.merged a).2) := by
  unfold settled performMatrixLogin
  cases hknown : auth.login auth.userId auth.deviceId with
  | some login => rfl
  | none =>
    dsimp only
    rw [Option.none_or]
    split_ifs with hsame
    · rw [hsame, hknown]
    · rfl

theorem merged_again (kvs : List (String × Py)) :
    Auth.merged
        { auth with
          userId := (auth.merged a).1
          deviceId := (auth.merged a).2
          credentials := kvs } a =
      auth.merged a := by
  refine Prod.ext ?_ ?_
  · show (discovered a.userId (some ((discovered a.userId (some auth.userId)).getD ""))).getD "" =
      (discovered a.userId (some auth.userId)).getD ""
    rcases discovered_cases a.userId with hnothing | ⟨user, -, -, hall⟩
    · rw [hnothing, hnothing, Option.getD_some, Option.getD_some]
    · rw [hall, hall]
  · show discovered a.deviceId (discovered a.deviceId auth.deviceId) =
      discovered a.deviceId auth.deviceId
    rcases discovered_cases a.deviceId with hnothing | ⟨device, -, -, hall⟩
    · rw [hnothing, hnothing]
    · rw [hall, hall]

theorem settled_again (kvs : List (String × Py))
    (hunknown : auth.login auth.userId auth.deviceId = none) :
    settled
        { auth with
          userId := (auth.merged a).1
          deviceId := (auth.merged a).2
          credentials := kvs } a =
      settled auth a := by
  rw [settled_eq, settled_eq, merged_again, hunknown, Option.none_or]
  exact Option.or_self

/-- There are credentials that determine the session of `auth₀`. -/
def Kept (u : Urls) (site : Site) (a : Answer) (auth₀ : Auth) (d : Disk) : Prop :=
  Plain site d ∧ ∃ kvs auth, loadCredentials site d = some kvs ∧ Reads u kvs auth ∧
    auth.homeserver = auth₀.homeserver ∧ auth.accessToken = auth₀.accessToken ∧
    settled auth a = settled auth₀ a

section Restarts

variable {site : Site} {auth₀ : Auth} {d : Disk} {answer : Option Answer} {outcome : Outcome}

theorem restart_eq (hload : loadCredentials site d = some kvs) (hreads : Reads u kvs auth) :
    restart u site answer outcome d =
      match performMatrixLogin auth answer with
      | (login, none) => (d, login)
      | (login, some kvs') => ((saveCredentials site d kvs' outcome).1, login) := by
  rw [restart, hload]
  dsimp only
  rw [readAuth_iff.mpr hreads]

/-- A login saves nothing and restores what is known, or it saves what the server has said and
restores the session that is settled. -/
theorem login_cases (auth : Auth) (answer : Option Answer) :
    (performMatrixLogin auth answer = (auth.login auth.userId auth.deviceId, none)) ∨
      ∃ a, answer = some a ∧ auth.login auth.userId auth.deviceId = none ∧
        performMatrixLogin auth answer = (settled auth a, some (auth.updated a)) := by
  unfold settled performMatrixLogin
  cases hknown : auth.login auth.userId auth.deviceId with
  | some login => exact .inl rfl
  | none =>
    cases answer with
    | none => exact .inl rfl
    | some a =>
      dsimp only
      split_ifs with hsame
      · exact .inl rfl
      · exact .inr ⟨a, rfl, rfl, by rw [if_neg hsame]⟩

theorem complete_of_saved (hsaved : (saveCredentials site d kvs outcome).2 = true) :
    outcome = .complete := by
  rcases save_cases site d kvs outcome with hsave | ⟨_, -, hsave | ⟨_, -, hsave, -⟩⟩
  · rw [hsave] at hsaved
    cases hsaved
  · rw [hsave] at hsaved
    cases hsaved
  · rw [hsave] at hsaved
    exact of_decide_eq_true hsaved

theorem kept_save (hkept : Plain site d) (hload : loadCredentials site d = some kvs)
    (hreads : Reads u kvs auth) (hclean : Clean u a auth.homeserver)
    (hunknown : auth.login auth.userId auth.deviceId = none) (htorn : outcome ≠ .torn) :
    Kept u site a auth (saveCredentials site d (auth.updated a) outcome).1 := by
  refine ⟨plain_save hkept _ _, ?_⟩
  cases hsaved : (saveCredentials site d (auth.updated a) outcome).2 with
  | false =>
    rw [load_failed htorn hsaved]
    exact ⟨kvs, auth, hload, hreads, rfl, rfl, rfl⟩
  | true =>
    obtain rfl := complete_of_saved hsaved
    obtain ⟨hrequired, hupdated⟩ := reads_updated hreads hclean
    exact ⟨_, _, load_saved hkept hrequired hsaved, hupdated, rfl, rfl, settled_again _ hunknown⟩

theorem kept_restart (hclean : Clean u a auth₀.homeserver) (htorn : outcome ≠ .torn)
    (hanswer : answer = none ∨ answer = some a) (hkept : Kept u site a auth₀ d) :
    Kept u site a auth₀ (restart u site answer outcome d).1 ∧
      (∀ login, (restart u site answer outcome d).2 = some login → settled auth₀ a = some login) ∧
      (answer = some a → (restart u site answer outcome d).2 = settled auth₀ a) := by
  obtain ⟨hplain, kvs, auth, hload, hreads, hhs, htoken, hsettled⟩ := id hkept
  rw [restart_eq hload hreads]
  rcases login_cases auth answer with hlogin | ⟨a', rfl, hunknown, hlogin⟩
  · -- nothing is saved
    rw [hlogin]
    refine ⟨hkept, fun login hknown => ?_, ?_⟩
    · rw [← hsettled, settled_eq, show auth.login auth.userId auth.deviceId = some login from hknown,
        Option.some_or]
    · rintro rfl
      rw [← hsettled, settled, hlogin]
  · obtain rfl : a' = a := by simpa using hanswer
    rw [hlogin]
    rw [← hhs] at hclean
    obtain ⟨hplain', kvs', auth', hload', hreads', hhs', htoken', hsettled'⟩ :=
      kept_save hplain hload hreads hclean hunknown htorn
    refine ⟨⟨hplain', kvs', auth', hload', hreads', hhs'.trans hhs, htoken'.trans htoken,
      hsettled'.trans hsettled⟩, fun login hnew => ?_, fun _ => hsettled⟩
    rw [← hsettled]
    exact hnew

/-- A session that is known is restored without the server, and nothing is saved. -/
theorem restarts_known {login : Login} (hload : loadCredentials site d = some kvs)
    (hreads : Reads u kvs auth) (hknown : auth.login auth.userId auth.deviceId = some login)
    (rs : List (Bool × Outcome)) :
    restarts u site a rs d = (d, List.replicate rs.length login) := by
  have hlogin (answer : Option Answer) :
      performMatrixLogin auth answer = (some login, none) := by
    unfold performMatrixLogin
    rw [hknown]
  induction rs with
  | nil => rfl
  | cons r rest ih =>
    rw [restarts, restart_eq hload hreads, hlogin]
    dsimp only
    rw [ih]
    rfl

theorem kept_restarts {rs : List (Bool × Outcome)} (hclean : Clean u a auth₀.homeserver)
    (htorn : ∀ r ∈ rs, r.2 ≠ .torn) (hkept : Kept u site a auth₀ d) :
    Kept u site a auth₀ (restarts u site a rs d).1 ∧
      (∀ login ∈ (restarts u site a rs d).2, settled auth₀ a = some login) ∧
      ((settled auth₀ a).isSome = true →
        rs.countP (fun r => r.1) ≤ (restarts u site a rs d).2.length) := by
  induction rs generalizing d with
  | nil => exact ⟨hkept, by simp [restarts], fun _ => Nat.zero_le _⟩
  | cons r rest ih =>
    obtain ⟨heard, outcome⟩ := r
    have hanswer : (if heard then some a else none) = none ∨
        (if heard then some a else none) = some a := by
      cases heard <;> simp
    obtain ⟨hfirst, hlogin, hheard⟩ :=
      kept_restart hclean (htorn _ List.mem_cons_self) hanswer hkept
    obtain ⟨hlast, hlogins, hcount⟩ := ih (fun r hr => htorn r (List.mem_cons_of_mem _ hr)) hfirst
    rw [restarts]
    refine ⟨hlast, fun login hmem => ?_, fun hsome => ?_⟩
    · rcases List.mem_append.mp hmem with hnew | hlater
      · exact hlogin login (Option.mem_toList.mp hnew)
      · exact hlogins login hlater
    · have hrest := hcount hsome
      rw [List.countP_cons, List.length_append]
      cases heard with
      | false => exact hrest.trans (Nat.le_add_left _ _)
      | true =>
        obtain ⟨login, hsettled⟩ := Option.isSome_iff_exists.mp hsome
        rw [hheard rfl, hsettled, Nat.add_comm]
        exact Nat.add_le_add le_rfl hrest

/-- **The session is kept** over restarts, whether the server is heard or not and whatever fails at
the saves, short of a torn file. -/
theorem session_kept {rs : List (Bool × Outcome)} (hplain : Plain site d)
    (hload : loadCredentials site d = some kvs) (hauth : readAuth u kvs = .ok (some auth))
    (hclean : Clean u a auth.homeserver) (htorn : ∀ r ∈ rs, r.2 ≠ .torn) :
    (∀ login ∈ (restarts u site a rs d).2, settled auth a = some login) ∧
      ((settled auth a).isSome = true →
        rs.countP (fun r => r.1) ≤ (restarts u site a rs d).2.length) ∧
      (∀ login, auth.login auth.userId auth.deviceId = some login →
        restarts u site a rs d = (d, List.replicate rs.length login)) ∧
      ∃ kvs' auth', loadCredentials site (restarts u site a rs d).1 = some kvs' ∧
        readAuth u kvs' = .ok (some auth') ∧ auth'.homeserver = auth.homeserver ∧
        auth'.accessToken = auth.accessToken ∧ settled auth' a = settled auth a := by
  have hreads := readAuth_iff.mp hauth
  have hkept : Kept u site a auth d := ⟨hplain, kvs, auth, hload, hreads, rfl, rfl, rfl⟩
  obtain ⟨⟨-, kvs', auth', hload', hreads', hhs, htoken, hsettled⟩, hlogins, hcount⟩ :=
    kept_restarts hclean htorn hkept
  exact ⟨hlogins, hcount, fun login hknown => restarts_known hload hreads hknown rs, kvs', auth',
    hload', readAuth_iff.mpr hreads', hhs, htoken, hsettled⟩

end Restarts

/-! ### A device that is asked for -/

def plainSite : Site := ⟨none, ["matrix"], []⟩

/-- Credentials without a device. -/
def userOnly : List (String × Py) :=
  [("homeserver", .str "https://example.org"), ("access_token", .str "t"),
    ("user_id", .str "@bot:example.org")]

def userOnlyDisk : Disk where
  dirs p := decide (p = [] ∨ p = ["matrix"])
  files p := if p = ["matrix", "credentials.json"] then some (.value (.dict userOnly)) else none
  below p name h := by
    split_ifs at h with heq
    · have heq' : p ++ [name] = ["matrix"] ++ ["credentials.json"] := heq
      rw [(List.append_inj' heq' rfl).1]
      rfl
    · exact absurd rfl h
  apart p h := by
    split_ifs at h with heq
    · rw [heq]
      rfl
    · exact absurd rfl h

def withDeviceX : Answer := ⟨none, some "X"⟩

/-- The server is heard from the second time on, and the first save fails. -/
def thirdSaves : List (Bool × Outcome) :=
  [(false, .complete), (true, .notOpened), (true, .complete), (false, .complete)]

theorem session_kept_device :
    (restarts Matrix.asciiUrls plainSite withDeviceX thirdSaves userOnlyDisk).2 =
        List.replicate 3 ⟨"https://example.org", "@bot:example.org", "X", "t"⟩ ∧
      ∀ login ∈ (restarts Matrix.asciiUrls plainSite withDeviceX thirdSaves userOnlyDisk).2,
        settled ⟨"https://example.org", "t", "@bot:example.org", none, withDevice userOnly⟩
          withDeviceX = some login := by
  have hload : loadCredentials plainSite userOnlyDisk = some (withDevice userOnly) := rfl
  refine ⟨by decide +kernel, (session_kept (.inr rfl) hload ?_ ?_ ?_).1⟩
  · exact readAuth_iff.mpr ⟨rfl, rfl, by decide +kernel, by decide +kernel, rfl, rfl⟩
  · refine ⟨fun v hv => (Option.some_ne_none v hv.symm).elim, fun v hv _ => ?_⟩
    cases hv
    decide +kernel
  · decide

/-- A server name with a port loses it when the user is read back: the second login is for another
user. -/
theorem portUser_renamed :
    (restarts Matrix.asciiUrls plainSite ⟨some "@bot:example.org:8448", some "X"⟩
        [(true, .complete), (true, .complete)] userOnlyDisk).2 =
      [⟨"https://example.org", "@bot:example.org:8448", "X", "t"⟩,
        ⟨"https://example.org", "@bot:example.org", "X", "t"⟩] := by
  decide +kernel

end MMRelay.Session
