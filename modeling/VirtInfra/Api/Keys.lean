import VirtInfra.Api.Token
import VirtInfra.Api.RateLimit

/-!
# `Keys` — the records of the API keys (`21_api_v1.py`, `23_admin_api_maintenance_ui.py`)

The forms of the administrators are cleaned before they are stored: the name is squeezed, the scopes are those that exist, and
the allowed addresses and networks are in their canonical form. What is stored is clean in the same sense, so that a rotation,
which sends the stored values through the same checks, writes them unchanged into the record of the new key.
-/

namespace VirtInfra.Api

open Lib Python

/-! ## What is stored -/

/-- A row of `api_keys`, with the lists that its JSON columns hold. -/
structure ApiKey where
  name : String
  secretHash : String
  scopes : List String
  allowedIps : List String
  isActive : Bool
  createdAt : Int
  createdBy : String
  expiresAt : Option Int
  lastUsedAt : Option Int
  lastUsedIp : String
  useCount : Nat
  revokedAt : Option Int
  revokedBy : String
  rotatedFrom : String
  note : String

/-- `api_keys`, by its unique `key_id`. -/
abbrev ApiKeys := KeyedTable String ApiKey

/-- **What the API takes from elsewhere**: SHA-256, `int` of a form field, and the addresses and networks of `ipaddress`, whose
constructors may raise. -/
structure ApiEnv (Address Network : Type*) where
  secretHash : String → String
  intOf : String → Option Int
  ipAddress : String → Option Address
  ipNetwork : String → Option Network
  addressText : Address → String
  networkText : Network → String
  contains : Network → Address → Bool
  rateLimit : Nat
  flushSeconds : Int

/-- `API_SUPPORTED_SCOPES`. -/
def apiSupportedScopes : List String :=
  ["abuse:read", "abuse_events:read", "vm:read", "node:read", "bandwidth:read"]

/-! ## Cleaning -/

/-- `_api_clean_name`. -/
def apiCleanName (value : String) : Except String String :=
  let value := squeeze (strip value).toList
  if value.length < 3 then .error "API key name must be at least 3 characters."
  else if 80 < value.length then .error "API key name must not exceed 80 characters."
  else .ok (String.ofList value)

/-- One value of `_api_clean_scopes`. -/
def addScope (cleaned : List String) (value : String) : List String :=
  let value := lower (strip value)
  if value ∈ apiSupportedScopes ∧ value ∉ cleaned then cleaned ++ [value] else cleaned

/-- `_api_clean_scopes`. -/
def apiCleanScopes (values : List String) : List String := values.foldl addScope []

section Allowlist

variable {Address Network : Type*} (env : ApiEnv Address Network)

/-- `str(ip_network(token))` where there is a slash, else `str(ip_address(token))`. -/
def ApiEnv.canonical (token : String) : Option String :=
  if '/' ∈ token.toList then (env.ipNetwork token).map env.networkText else (env.ipAddress token).map env.addressText

/-- One token of `_api_normalize_allowlist`. -/
def addAllowed (result : List String) (token : String) : Except String (List String) :=
  let token := strip token
  if token = "" then .ok result
  else match env.canonical token with
    | none => .error ("Invalid allowed IP or CIDR: " ++ token)
    | some canonical => .ok (if canonical ∈ result then result else result ++ [canonical])

/-- **`_api_normalize_allowlist`**, of a list. -/
def apiNormalizeAllowlist (tokens : List String) : Except String (List String) :=
  match tokens.foldlM (addAllowed env) [] with
  | .error message => .error message
  | .ok result => if 64 < result.length then .error "A maximum of 64 IP/CIDR entries is allowed per key." else .ok result

/-- The list that a text is split into: at the ends of lines, commas, semicolons, spaces and tabs. -/
def allowlistTokens (raw : String) : List String :=
  ((raw.toList.map fun c => if c ∈ ['\r', ',', ';', ' ', '\t'] then '\n' else c).splitOn '\n').map String.ofList

/-- `_api_allowlist_matches`. -/
def apiAllowlistMatches [DecidableEq Address] (clientIp : String) (allowed : List String) : Bool :=
  allowed.isEmpty ||
    match env.ipAddress clientIp with
    | none => false
    | some address => allowed.any fun item =>
        if '/' ∈ item.toList then (env.ipNetwork item).any fun network => env.contains network address
        else (env.ipAddress item).any fun other => address = other

/-- **What the canonical forms of `ipaddress` are**: they have no blanks around them, they are read as what they were written
for, and a slash is in those of networks only. -/
structure ApiEnv.Canonical : Prop where
  address : ∀ token address, strip token = token → '/' ∉ token.toList → env.ipAddress token = some address →
    strip (env.addressText address) = env.addressText address ∧ env.addressText address ≠ "" ∧
      '/' ∉ (env.addressText address).toList ∧ env.ipAddress (env.addressText address) = some address
  network : ∀ token network, env.ipNetwork token = some network →
    strip (env.networkText network) = env.networkText network ∧ '/' ∈ (env.networkText network).toList ∧
      env.ipNetwork (env.networkText network) = some network

end Allowlist

/-! ## What is clean stays as it is -/

/-- **A clean name is not changed.** -/
theorem apiCleanName_clean {value name : String} (h : apiCleanName value = .ok name) :
    apiCleanName name = .ok name ∧ name ≠ "" := by
  unfold apiCleanName at h
  dsimp only at h
  split at h
  · cases h
  · next hshort =>
      split at h
      · cases h
      · next hlong =>
          obtain rfl := Except.ok.inj h
          have hstrip : squeeze (strip (String.ofList (squeeze (strip value).toList))).toList =
              squeeze (strip value).toList := by
            rw [strip_of_trim (trim_squeeze _), String.toList_ofList, squeeze_squeeze]
          constructor
          · unfold apiCleanName
            dsimp only
            rw [hstrip, if_neg hshort, if_neg hlong]
          · intro hempty
            have hnil := congrArg String.toList hempty
            rw [String.toList_ofList] at hnil
            rw [hnil] at hshort
            exact hshort (by decide)

/-- The scopes that exist, each once. -/
structure CleanScopes (scopes : List String) : Prop where
  supported : ∀ scope ∈ scopes, scope ∈ apiSupportedScopes
  nodup : scopes.Nodup

theorem CleanScopes.addScope {scopes : List String} (h : CleanScopes scopes) (value : String) :
    CleanScopes (addScope scopes value) := by
  unfold Api.addScope
  dsimp only
  split
  · next hnew =>
      refine ⟨fun scope hscope => ?_, List.nodup_append.mpr ⟨h.nodup, List.nodup_singleton _, ?_⟩⟩
      · rcases List.mem_append.mp hscope with hscope | hscope
        · exact h.supported scope hscope
        · exact List.mem_singleton.mp hscope ▸ hnew.1
      · rintro a ha b hb rfl
        exact hnew.2 (List.mem_singleton.mp hb ▸ ha)
  · exact h

theorem cleanScopes_apiCleanScopes (values : List String) : CleanScopes (apiCleanScopes values) :=
  List.foldlRecOn values addScope ⟨by simp, List.nodup_nil⟩ fun _ h value _ => h.addScope value

/-- A scope that exists is in lower case. -/
theorem lower_strip_supported {scope : String} (h : scope ∈ apiSupportedScopes) : lower (strip scope) = scope := by
  simp only [apiSupportedScopes, List.mem_cons, List.not_mem_nil, or_false] at h
  rcases h with rfl | rfl | rfl | rfl | rfl <;> decide

/-- **Clean scopes are not changed.** -/
theorem CleanScopes.apiCleanScopes_eq {scopes : List String} (h : CleanScopes scopes) : apiCleanScopes scopes = scopes := by
  have hfold : ∀ before : List String, CleanScopes (before ++ scopes) → scopes.foldl Api.addScope before = before ++ scopes := by
    clear h
    induction scopes with
    | nil => exact fun before _ => (List.append_nil before).symm
    | cons scope rest ih =>
        intro before h
        have hmem : scope ∈ before ++ scope :: rest := List.mem_append_right _ List.mem_cons_self
        have hnew : scope ∉ before := fun hbefore =>
          (List.nodup_append.mp h.nodup).2.2 scope hbefore scope List.mem_cons_self rfl
        have hadd : Api.addScope before scope = before ++ [scope] := by
          unfold Api.addScope
          rw [lower_strip_supported (h.supported scope hmem), if_pos ⟨h.supported scope hmem, hnew⟩]
        rw [List.append_cons] at h
        rw [List.foldl_cons, hadd, ih (before ++ [scope]) h, ← List.append_cons]
  exact hfold [] h

section Allowlist

variable {Address Network : Type*} {env : ApiEnv Address Network}

/-- Canonical entries, each once. -/
structure ApiEnv.CleanAllowlist (env : ApiEnv Address Network) (allowed : List String) : Prop where
  canonical : ∀ entry ∈ allowed, strip entry = entry ∧ entry ≠ "" ∧ env.canonical entry = some entry
  nodup : allowed.Nodup

/-- What is canonical is not changed. -/
theorem ApiEnv.Canonical.canonical (laws : env.Canonical) {token entry : String} (hstrip : strip token = token)
    (h : env.canonical token = some entry) :
    strip entry = entry ∧ entry ≠ "" ∧ env.canonical entry = some entry := by
  unfold ApiEnv.canonical at h
  split at h
  · obtain ⟨network, hnetwork, rfl⟩ := Option.map_eq_some_iff.mp h
    obtain ⟨hstrip', hslash, hagain⟩ := laws.network token network hnetwork
    refine ⟨hstrip', fun hempty => ?_, ?_⟩
    · rw [hempty] at hslash
      cases hslash
    · rw [ApiEnv.canonical, if_pos hslash, hagain, Option.map_some]
  · next hslash =>
      obtain ⟨address, haddress, rfl⟩ := Option.map_eq_some_iff.mp h
      obtain ⟨hstrip', hne, hplain, hagain⟩ := laws.address token address hstrip hslash haddress
      refine ⟨hstrip', hne, ?_⟩
      rw [ApiEnv.canonical, if_neg hplain, hagain, Option.map_some]

theorem addAllowed_clean (laws : env.Canonical) {result result' : List String} {token : String}
    (h : env.CleanAllowlist result) (hadd : addAllowed env result token = .ok result') : env.CleanAllowlist result' := by
  unfold addAllowed at hadd
  dsimp only at hadd
  split at hadd
  · obtain rfl := Except.ok.inj hadd
    exact h
  · split at hadd
    · cases hadd
    · next entry hentry =>
        obtain rfl := Except.ok.inj hadd
        split
        · exact h
        · next hnew =>
            refine ⟨fun other hother => ?_, List.nodup_append.mpr ⟨h.nodup, List.nodup_singleton _, ?_⟩⟩
            · rcases List.mem_append.mp hother with hother | hother
              · exact h.canonical other hother
              · rw [List.mem_singleton.mp hother]
                exact laws.canonical (strip_strip token) hentry
            · rintro a ha b hb rfl
              exact hnew (List.mem_singleton.mp hb ▸ ha)

theorem foldlM_addAllowed_clean (laws : env.Canonical) {tokens before result : List String}
    (h : env.CleanAllowlist before) (hfold : tokens.foldlM (addAllowed env) before = .ok result) :
    env.CleanAllowlist result := by
  induction tokens generalizing before with
  | nil =>
      obtain rfl := Except.ok.inj hfold
      exact h
  | cons token rest ih =>
      rw [List.foldlM_cons] at hfold
      cases hadd : addAllowed env before token with
      | error message => rw [hadd] at hfold; cases hfold
      | ok next =>
          rw [hadd] at hfold
          exact ih (addAllowed_clean laws h hadd) hfold

theorem foldlM_addAllowed_of_clean {rest before : List String} (h : env.CleanAllowlist (before ++ rest)) :
    rest.foldlM (addAllowed env) before = .ok (before ++ rest) := by
  induction rest generalizing before with
  | nil => exact congrArg Except.ok (List.append_nil before).symm
  | cons entry rest ih =>
      obtain ⟨hstrip, hne, hcanonical⟩ := h.canonical entry (List.mem_append_right _ List.mem_cons_self)
      have hnew : entry ∉ before := fun hbefore =>
        (List.nodup_append.mp h.nodup).2.2 entry hbefore entry List.mem_cons_self rfl
      have hadd : addAllowed env before entry = .ok (before ++ [entry]) := by
        unfold addAllowed
        simp only [hstrip, hne, hcanonical, hnew, if_false]
      rw [List.append_cons] at h ⊢
      rw [List.foldlM_cons, hadd]
      exact ih h

/-- **A normalized allowlist is not changed.** -/
theorem apiNormalizeAllowlist_clean (laws : env.Canonical) {tokens allowed : List String}
    (h : apiNormalizeAllowlist env tokens = .ok allowed) : apiNormalizeAllowlist env allowed = .ok allowed := by
  unfold apiNormalizeAllowlist at h
  split at h
  · cases h
  · next result hresult =>
      split at h
      · cases h
      · next hlength =>
          obtain rfl := Except.ok.inj h
          have hclean : env.CleanAllowlist result := foldlM_addAllowed_clean laws ⟨by simp, List.nodup_nil⟩ hresult
          have hagain : result.foldlM (addAllowed env) [] = .ok result := foldlM_addAllowed_of_clean hclean
          unfold apiNormalizeAllowlist
          rw [hagain]
          exact if_neg hlength

end Allowlist

/-! ## Creating a record -/

/-- The arguments of `_api_create_key_record`. -/
structure NewKey where
  name : String
  scopes : List String
  allowedIps : List String
  expiresAt : Option Int
  actor : String
  note : String
  rotatedFrom : String

/-- `safe_int(expires_at, 0) or None`. -/
def expiryOrNone (expiresAt : Option Int) : Option Int := expiresAt.filter (· ≠ 0)

section Record

variable {Address Network : Type*} (env : ApiEnv Address Network)

/-- **`_api_create_key_record`**. An id that exists fails the transaction: the statement of the next attempt finds it aborted. -/
def apiCreateKeyRecord (now : Int) (new : NewKey) (draw : Draw) (keys : ApiKeys) : Except String ApiKeys := do
  let name ← apiCleanName new.name
  let scopes := apiCleanScopes new.scopes
  if scopes = [] then throw "Select at least one API permission."
  let allowedIps ← apiNormalizeAllowlist env new.allowedIps
  let expiresAt := expiryOrNone new.expiresAt
  if expiresAt.any (· ≤ now) then throw "Expiration must be in the future."
  let (keyId, secret, _) := apiGenerateToken draw
  if (keys.get? keyId).isSome then throw "current transaction is aborted, commands ignored until end of transaction block"
  return keys.put keyId
    { name, secretHash := env.secretHash secret, scopes, allowedIps, isActive := true, createdAt := now
      createdBy := clip 120 (strip new.actor), expiresAt, lastUsedAt := none, lastUsedIp := "", useCount := 0
      revokedAt := none, revokedBy := "", rotatedFrom := clip 64 new.rotatedFrom, note := clip 500 (strip new.note) }

/-- **What a new record holds**: the cleaned values, under an id that was free. -/
theorem apiCreateKeyRecord_eq_ok {now : Int} {new : NewKey} {draw : Draw} {keys keys' : ApiKeys}
    (h : apiCreateKeyRecord env now new draw keys = .ok keys') :
    ∃ row : ApiKey, keys.get? draw.keyId = none ∧ keys' = keys.put draw.keyId row ∧
      row.secretHash = env.secretHash draw.secret ∧ row.isActive = true ∧ apiCleanName new.name = .ok row.name ∧
      row.scopes = apiCleanScopes new.scopes ∧ row.scopes ≠ [] ∧
      apiNormalizeAllowlist env new.allowedIps = .ok row.allowedIps := by
  unfold apiCreateKeyRecord at h
  cases hname : apiCleanName new.name with
  | error message => rw [hname] at h; cases h
  | ok name =>
      cases hallowed : apiNormalizeAllowlist env new.allowedIps with
      | error message =>
          rw [hname, hallowed] at h
          by_cases hscopes : apiCleanScopes new.scopes = [] <;> simp [hscopes, bind, Except.bind] at h
      | ok allowedIps =>
          rw [hname, hallowed] at h
          by_cases hscopes : apiCleanScopes new.scopes = []
          · simp [hscopes, bind, Except.bind] at h
          by_cases hexpiry : (expiryOrNone new.expiresAt).any (· ≤ now) = true
          · simp [hscopes, hexpiry, bind, Except.bind] at h
          cases hget : keys.get? draw.keyId with
          | some row => simp [hscopes, hexpiry, hget, apiGenerateToken, bind, Except.bind] at h
          | none =>
              simp [hscopes, hexpiry, hget, apiGenerateToken, bind, Except.bind, pure, Except.pure] at h
              exact ⟨_, rfl, h.symm, rfl, rfl, rfl, rfl, hscopes, rfl⟩

/-! ## The pages of the administrators -/

/-- `_api_expiration_from_form`. -/
def apiExpirationFromForm (now : Int) (value : String) : Except String (Option Int) :=
  let value := lower (strip value)
  if value ∈ ["", "never", "0"] then .ok none
  else match env.intOf value with
    | none => .error "Invalid expiration option."
    | some days => if days ∈ [7, 30, 90, 180, 365] then .ok (some (now + days * 86400)) else .error "Invalid expiration option."

/-- `_v48122_expiration_value`. -/
def expirationValue (now : Int) (value : String) (current : Option Int) : Except String (Option Int) :=
  let value := lower (strip value)
  if value ∈ ["", "keep"] then .ok (expiryOrNone current)
  else if value = "never" then .ok none
  else if value ∈ ["7", "30", "90", "180", "365"] then .ok ((env.intOf value).map fun days => now + days * 86400)
  else .error "Invalid expiration option."

/-- The forms of `/admin/api-keys/create` and `/admin/api-keys/edit`. -/
structure KeyForm where
  name : String
  scopes : List String
  allowedIps : String
  expiration : String
  note : String

/-- **`admin_api_key_create`**, up to its commit. -/
def createKey (now : Int) (actor : String) (form : KeyForm) (draw : Draw) (keys : ApiKeys) : Except String ApiKeys :=
  match apiExpirationFromForm env now form.expiration with
  | .error message => .error message
  | .ok expiresAt =>
      apiCreateKeyRecord env now
        { name := form.name, scopes := form.scopes, allowedIps := allowlistTokens form.allowedIps, expiresAt, actor
          note := form.note, rotatedFrom := "" } draw keys

theorem createKey_eq_ok {now : Int} {actor : String} {form : KeyForm} {draw : Draw} {keys keys' : ApiKeys}
    (h : createKey env now actor form draw keys = .ok keys') :
    ∃ new, apiCreateKeyRecord env now new draw keys = .ok keys' := by
  unfold createKey at h
  split at h
  · cases h
  · exact ⟨_, h⟩

end Record

/-- `UPDATE api_keys SET … WHERE key_id=?`. -/
def setKey (keys : ApiKeys) (keyId : String) (f : ApiKey → ApiKey) : ApiKeys :=
  keys.update fun key row => if key = keyId then f row else row

theorem get?_setKey (keys : ApiKeys) (keyId key : String) (f : ApiKey → ApiKey) :
    (setKey keys keyId f).get? key = if key = keyId then (keys.get? key).map f else keys.get? key := by
  rw [setKey, KeyedTable.get?_update]
  split
  · rfl
  · exact Option.map_id'

section Pages

variable {Address Network : Type*} (env : ApiEnv Address Network)

/-- **`admin_api_key_edit`**, for the row that it read: the update as a function of the row it finds. -/
def editKey (now : Int) (form : KeyForm) (key : ApiKey) : Except String (ApiKey → ApiKey) := do
  let name ← apiCleanName (if form.name = "" then key.name else form.name)
  let scopes := apiCleanScopes form.scopes
  if scopes = [] then throw "Select at least one API permission."
  let allowedIps ← apiNormalizeAllowlist env (allowlistTokens form.allowedIps)
  let expiresAt ← expirationValue env now form.expiration key.expiresAt
  return fun row => { row with name, scopes, allowedIps, expiresAt, note := clip 500 (strip form.note) }

/-- `SET is_active=0,revoked_at=?,revoked_by=?`. -/
def revokeRow (now : Int) (actor : String) (row : ApiKey) : ApiKey :=
  { row with isActive := false, revokedAt := some now, revokedBy := actor }

/-- **`admin_api_key_revoke`**, for the row that it read. -/
def revokeKey (now : Int) (actor keyId : String) (key : ApiKey) (keys : ApiKeys) : Except String ApiKeys :=
  if key.isActive then .ok (setKey keys keyId (revokeRow now actor)) else .error "API key is already revoked."

/-- The record of the new key: one that has expired is replaced by one that does not expire. -/
def rotatedKey (now : Int) (actor oldKeyId : String) (old : ApiKey) : NewKey where
  name := if old.name = "" then "Rotated API Key" else old.name
  scopes := old.scopes
  allowedIps := old.allowedIps
  expiresAt := (expiryOrNone old.expiresAt).filter (now < ·)
  actor := actor
  note := old.note
  rotatedFrom := oldKeyId

/-- **`admin_api_key_rotate`**, for the row that it read. -/
def rotateKey (now : Int) (actor oldKeyId : String) (old : ApiKey) (draw : Draw) (keys : ApiKeys) : Except String ApiKeys :=
  if old.isActive then
    match apiCreateKeyRecord env now (rotatedKey now actor oldKeyId old) draw keys with
    | .error message => .error message
    | .ok created => .ok (setKey created oldKeyId (revokeRow now actor))
  else .error "Only an active API key can be rotated."

/-- What an edit writes: the cleaned values of its form. -/
theorem editKey_eq_ok {now : Int} {form : KeyForm} {key : ApiKey} {f : ApiKey → ApiKey}
    (h : editKey env now form key = .ok f) :
    ∃ name allowedIps expiresAt note, apiCleanName (if form.name = "" then key.name else form.name) = .ok name ∧
      apiCleanScopes form.scopes ≠ [] ∧ apiNormalizeAllowlist env (allowlistTokens form.allowedIps) = .ok allowedIps ∧
      f = fun row => { row with name, scopes := apiCleanScopes form.scopes, allowedIps, expiresAt, note } := by
  unfold editKey at h
  cases hname : apiCleanName (if form.name = "" then key.name else form.name) with
  | error message => rw [hname] at h; cases h
  | ok name =>
      rw [hname] at h
      by_cases hscopes : apiCleanScopes form.scopes = []
      · simp [hscopes, bind, Except.bind] at h
      cases hallowed : apiNormalizeAllowlist env (allowlistTokens form.allowedIps) with
      | error message => simp [hscopes, hallowed, bind, Except.bind] at h
      | ok allowedIps =>
          cases hexpiry : expirationValue env now form.expiration key.expiresAt with
          | error message => simp [hscopes, hallowed, hexpiry, bind, Except.bind] at h
          | ok expiresAt =>
              simp only [hscopes, hallowed, hexpiry, bind, Except.bind, pure, Except.pure, if_false] at h
              exact ⟨name, allowedIps, expiresAt, _, rfl, hscopes, rfl, (Except.ok.inj h).symm⟩

/-- What a rotation writes: the record of the new key, and the end of the old one. -/
theorem rotateKey_eq_ok {now : Int} {actor oldKeyId : String} {old : ApiKey} {draw : Draw} {keys keys' : ApiKeys}
    (h : rotateKey env now actor oldKeyId old draw keys = .ok keys') :
    ∃ created, apiCreateKeyRecord env now (rotatedKey now actor oldKeyId old) draw keys = .ok created ∧
      keys' = setKey created oldKeyId (revokeRow now actor) := by
  unfold rotateKey at h
  split at h
  · split at h
    · cases h
    · next created hcreated => exact ⟨created, hcreated, (Except.ok.inj h).symm⟩
  · cases h

end Pages

/-! ## Authentication -/

/-- A refused request. -/
structure ApiError where
  code : String
  message : String
  status : Nat

/-- A request to a route that needs scopes. -/
structure ApiRequest where
  authorization : String
  clientIp : String
  requiredScopes : List String

section Authenticate

variable {Address Network : Type*} [DecidableEq Address] (env : ApiEnv Address Network)

/-- The checks of `_api_authenticate` on the row of a key: the first one that fails. -/
def apiCheckKey (now : Int) (request : ApiRequest) (secret : String) (key : ApiKey) : Option ApiError :=
  let missing := request.requiredScopes.filter (· ∉ key.scopes)
  if key.secretHash ≠ env.secretHash secret then some ⟨"invalid_api_key", "The API key is invalid.", 401⟩
  else if key.isActive = false then some ⟨"api_key_revoked", "The API key has been revoked.", 401⟩
  else if (expiryOrNone key.expiresAt).any (· ≤ now) = true then
    some ⟨"api_key_expired", "The API key has expired.", 401⟩
  else if apiAllowlistMatches env request.clientIp key.allowedIps = false then
    some ⟨"source_ip_not_allowed", "This source IP is not allowed for the API key.", 403⟩
  else if missing ≠ [] then
    some ⟨"insufficient_scope", "Required scope: " ++ ", ".intercalate missing ++ ".", 403⟩
  else none

/-- **`_api_authenticate`** up to the rate limit: the id of the key and its row. -/
def apiAuthenticate (now : Int) (request : ApiRequest) (keys : ApiKeys) : Except ApiError (String × ApiKey) :=
  match apiParseToken (apiExtractBearer request.authorization) with
  | none => .error ⟨"missing_or_invalid_api_key", "Provide a valid Bearer API key.", 401⟩
  | some (keyId, secret) =>
      match keys.get? keyId with
      | none => .error ⟨"invalid_api_key", "The API key is invalid.", 401⟩
      | some key =>
          match apiCheckKey env now request secret key with
          | some error => .error error
          | none => .ok (keyId, key)

/-- **What a row passes for.** -/
structure Passes (now : Int) (request : ApiRequest) (secret : String) (key : ApiKey) : Prop where
  hash : key.secretHash = env.secretHash secret
  active : key.isActive = true
  unexpired : ∀ expiresAt ∈ expiryOrNone key.expiresAt, now < expiresAt
  address : apiAllowlistMatches env request.clientIp key.allowedIps = true
  scopes : ∀ scope ∈ request.requiredScopes, scope ∈ key.scopes

theorem passes_of_apiCheckKey {now : Int} {request : ApiRequest} {secret : String} {key : ApiKey}
    (h : apiCheckKey env now request secret key = none) : Passes env now request secret key := by
  unfold apiCheckKey at h
  dsimp only at h
  split_ifs at h with hhash hactive hexpired haddress hmissing
  refine ⟨not_not.mp hhash, by simpa using hactive, fun expiresAt hexpiry => ?_, by simpa using haddress,
    fun scope hscope => ?_⟩
  · rw [Option.mem_def.mp hexpiry] at hexpired
    simpa using hexpired
  · by_contra hnot
    exact List.filter_eq_nil_iff.mp (not_not.mp hmissing) scope hscope (by simpa using hnot)

theorem apiAuthenticate_eq_ok {now : Int} {request : ApiRequest} {keys : ApiKeys} {keyId : String} {key : ApiKey}
    (h : apiAuthenticate env now request keys = .ok (keyId, key)) :
    keys.get? keyId = some key ∧ ∃ secret, apiParseToken (apiExtractBearer request.authorization) = some (keyId, secret) ∧
      Passes env now request secret key := by
  unfold apiAuthenticate at h
  split at h
  · cases h
  · next keyId' secret hparse =>
      split at h
      · cases h
      · next key' hget =>
          split at h
          · cases h
          · next hcheck =>
              obtain ⟨rfl, rfl⟩ := Prod.mk.inj (Except.ok.inj h)
              exact ⟨hget, secret, hparse, passes_of_apiCheckKey env hcheck⟩

end Authenticate

end VirtInfra.Api
