import VirtInfra.Api.Keys
import VirtInfra.Lib.Transition

/-!
# `Access` — keys, their administrators and their callers (`21_api_v1.py`, `22_api_hub_logs.py`, `23_admin_api_maintenance_ui.py`)

The pages that edit, revoke or rotate a key read its row and write later; a request reads the row of its key and asks for the
rate limit later. `apiSystem` has all of them at once, in any order. It also writes down what was issued and what was granted:
the record of a created key and the form of an edit are grants, and a rotation issues a new secret without one.

A rotation may run after an edit of the same key, or after its revocation, with the row it read before. So an accepted request
is not within the rights that its key has *now*. It is within the rights of one grant, to its key or to one that it descends
from by rotations; and a key whose row is inactive or gone is not accepted again.
-/

namespace VirtInfra.Api

open Lib Python

/-- The id of a key and the hash of its secret. -/
abbrev Credential := String × String

/-- A secret that was issued, and the key it was rotated from. -/
structure Issue where
  credential : Credential
  source : Option Credential

/-- What an administrator entered for a key. -/
structure Grant where
  credential : Credential
  name : String
  scopes : List String
  allowedIps : List String

/-- A request that has authenticated. -/
structure Access where
  credential : Credential
  clientIp : String
  requiredScopes : List String
  readAt : Int

/-- **The API**, with the requests of administrators and callers that are under way. -/
structure ApiState (ι : Type*) where
  keys : ApiKeys
  clock : Int
  windows : RateWindows
  /-- `_api_last_used_cache`. -/
  lastUsed : KeyedTable (String × String) Int
  reading : KeyedTable ι (String × ApiKey)
  pending : KeyedTable ι Access
  flushing : KeyedTable ι (Int × String × String)
  issued : List Issue
  granted : List Grant
  accepted : List Access

inductive ApiStep (ι : Type*)
  | tick (seconds : Nat)
  | create (actor : String) (form : KeyForm) (draw : Draw)
  | read (i : ι) (keyId : String)
  | edit (i : ι) (form : KeyForm)
  | revoke (i : ι) (actor : String)
  | rotate (i : ι) (actor : String) (draw : Draw)
  | delete (keyId : String)
  | forget (keyId : String)
  | clearKeys
  | clearWindows
  | present (i : ι) (request : ApiRequest)
  | allow (i : ι)
  | flush (i : ι)

/-- The row of a key as a grant. -/
def grantAt (keys : ApiKeys) (keyId : String) : List Grant :=
  (keys.get? keyId).toList.map fun row => ⟨(keyId, row.secretHash), row.name, row.scopes, row.allowedIps⟩

/-- `SET last_used_at=?,last_used_ip=?,use_count=use_count+1 WHERE … AND is_active=1`. -/
def touchRow (now : Int) (clientIp : String) (row : ApiKey) : ApiKey :=
  if row.isActive then
    { row with lastUsedAt := some now, lastUsedIp := clip 128 clientIp, useCount := row.useCount + 1 }
  else row

section System

variable {ι : Type*} [DecidableEq ι] {Address Network : Type*} [DecidableEq Address] (env : ApiEnv Address Network)

/-- The write of an administrator who has read a row. -/
def ApiState.edit (s : ApiState ι) (keyId : String) (key : ApiKey) (form : KeyForm) : ApiState ι :=
  match editKey env s.clock form key with
  | .error _ => s
  | .ok f => { s with keys := setKey s.keys keyId f, granted := s.granted ++ grantAt (setKey s.keys keyId f) keyId }

def ApiState.revoke (s : ApiState ι) (keyId : String) (key : ApiKey) (actor : String) : ApiState ι :=
  match revokeKey s.clock actor keyId key s.keys with
  | .error _ => s
  | .ok keys => { s with keys }

def ApiState.rotate (s : ApiState ι) (keyId : String) (key : ApiKey) (actor : String) (draw : Draw) : ApiState ι :=
  match rotateKey env s.clock actor keyId key draw s.keys with
  | .error _ => s
  | .ok keys =>
      { s with
        keys, issued := s.issued ++ [⟨(draw.keyId, env.secretHash draw.secret), some (keyId, key.secretHash)⟩] }

def ApiState.create (s : ApiState ι) (actor : String) (form : KeyForm) (draw : Draw) : ApiState ι :=
  match createKey env s.clock actor form draw s.keys with
  | .error _ => s
  | .ok keys =>
      { s with
        keys, issued := s.issued ++ [⟨(draw.keyId, env.secretHash draw.secret), none⟩]
        granted := s.granted ++ grantAt keys draw.keyId }

/-- The rate limit of a request that has authenticated, and `_api_flush_last_used` up to its statement. -/
def ApiState.allow (s : ApiState ι) (i : ι) (access : Access) : ApiState ι :=
  let answer := apiRateAllowed env.rateLimit (access.credential.1, access.clientIp, s.clock / 60) s.windows
  let s := { s with windows := answer.2 }
  if answer.1.1 then
    let s := { s with accepted := s.accepted ++ [access] }
    if s.clock - (s.lastUsed.get? (access.credential.1, access.clientIp)).getD 0 < env.flushSeconds then s
    else
      { s with
        lastUsed := s.lastUsed.put (access.credential.1, access.clientIp) s.clock
        flushing := s.flushing.put i (s.clock, access.credential.1, access.clientIp) }
  else s

/-- A request that reads the row of its key. -/
def ApiState.present (s : ApiState ι) (i : ι) (request : ApiRequest) : ApiState ι :=
  match apiAuthenticate env s.clock request s.keys with
  | .error _ => s
  | .ok (keyId, key) =>
      { s with
        pending := s.pending.put i ⟨(keyId, key.secretHash), request.clientIp, request.requiredScopes, s.clock⟩ }

/-- **The pages and routes of the API**, one statement after another. A restore of a configuration, which puts back the keys
of a backup, is not one of them. -/
def apiSystem (ι : Type*) [DecidableEq ι] : System (ApiState ι) (ApiStep ι) where
  init s := s.keys.rows = [] ∧ s.reading.rows = [] ∧ s.pending.rows = [] ∧ s.issued = [] ∧ s.granted = [] ∧ s.accepted = []
  step s
    | .tick seconds => some { s with clock := s.clock + seconds }
    | .create actor form draw => some (s.create env actor form draw)
    | .read i keyId =>
        if (s.reading.get? i).isSome then none
        else some (match s.keys.get? keyId with
          | none => s
          | some key => { s with reading := s.reading.put i (keyId, key) })
    | .edit i form => (s.reading.get? i).map fun read =>
        { s.edit env read.1 read.2 form with reading := s.reading.deleteWhere (· = i) }
    | .revoke i actor => (s.reading.get? i).map fun read =>
        { s.revoke read.1 read.2 actor with reading := s.reading.deleteWhere (· = i) }
    | .rotate i actor draw => (s.reading.get? i).map fun read =>
        { s.rotate env read.1 read.2 actor draw with reading := s.reading.deleteWhere (· = i) }
    | .delete keyId => some { s with keys := s.keys.deleteWhere (· = keyId) }
    | .forget keyId =>
        some { s with
          lastUsed := s.lastUsed.deleteWhere (·.1 = keyId), windows := s.windows.deleteWhere (·.1 = keyId) }
    | .clearKeys => some { s with keys := .empty }
    | .clearWindows => some { s with lastUsed := .empty, windows := .empty }
    | .present i request => if (s.pending.get? i).isSome then none else some (s.present env i request)
    | .allow i => (s.pending.get? i).map fun access =>
        { s.allow env i access with pending := s.pending.deleteWhere (· = i) }
    | .flush i => (s.flushing.get? i).map fun use =>
        { s with
          keys := setKey s.keys use.2.1 (touchRow use.1 use.2.2), flushing := s.flushing.deleteWhere (· = i) }

end System

/-! ## Where rights come from -/

/-- **A credential and those it was rotated from.** -/
inductive Lineage (issued : List Issue) : Credential → Credential → Prop
  | refl (c : Credential) : Lineage issued c c
  | rotated {issue : Issue} {source c : Credential} (h : issue ∈ issued) (hsource : issue.source = some source)
      (rest : Lineage issued source c) : Lineage issued issue.credential c

theorem Lineage.mono {issued issued' : List Issue} (hsub : issued ⊆ issued') {c c' : Credential} (h : Lineage issued c c') :
    Lineage issued' c c' := by
  induction h with
  | refl c => exact .refl c
  | rotated h hsource _ ih => exact .rotated (hsub h) hsource ih

/-- The rights of a row are those of a grant. -/
structure RowTraced (issued : List Issue) (granted : List Grant) (keyId : String) (row : ApiKey) : Prop where
  issue : ∃ issue ∈ issued, issue.credential = (keyId, row.secretHash)
  grant : ∃ grant ∈ granted, Lineage issued (keyId, row.secretHash) grant.credential ∧ row.name = grant.name ∧
    row.scopes = grant.scopes ∧ row.allowedIps = grant.allowedIps

section Rows

variable {issued issued' : List Issue} {granted granted' : List Grant} {keyId : String} {old row : ApiKey}

theorem RowTraced.mono (h : RowTraced issued granted keyId row) (hissued : issued ⊆ issued') (hgranted : granted ⊆ granted') :
    RowTraced issued' granted' keyId row := by
  obtain ⟨issue, hissue, hcredential⟩ := h.issue
  obtain ⟨grant, hgrant, hlineage, hrow⟩ := h.grant
  exact ⟨⟨issue, hissued hissue, hcredential⟩, grant, hgranted hgrant, hlineage.mono hissued, hrow⟩

/-- The same rights, whatever else has changed. -/
structure SameRights (old row : ApiKey) : Prop where
  name : row.name = old.name
  secretHash : row.secretHash = old.secretHash
  scopes : row.scopes = old.scopes
  allowedIps : row.allowedIps = old.allowedIps

theorem RowTraced.same (h : RowTraced issued granted keyId old) (hsame : SameRights old row) :
    RowTraced issued granted keyId row := by
  obtain ⟨grant, hgrant, hlineage, hname, hscopes, hallowed⟩ := h.grant
  refine ⟨by rw [hsame.secretHash]; exact h.issue, grant, hgrant, by rw [hsame.secretHash]; exact hlineage, ?_, ?_, ?_⟩
  · exact hsame.name.trans hname
  · exact hsame.scopes.trans hscopes
  · exact hsame.allowedIps.trans hallowed

end Rows

section Traced

variable {ι : Type*} [DecidableEq ι] {Address Network : Type*} [DecidableEq Address] (env : ApiEnv Address Network)

/-- **A grant of what an administrator may enter.** -/
structure Grant.Sound (grant : Grant) : Prop where
  name : apiCleanName grant.name = .ok grant.name
  scopes : CleanScopes grant.scopes
  some_scope : grant.scopes ≠ []
  allowedIps : apiNormalizeAllowlist env grant.allowedIps = .ok grant.allowedIps

/-- **An access within a grant**: its credential was issued, and the grant is to the key or to one that it was rotated from. -/
structure Within (issued : List Issue) (granted : List Grant) (access : Access) : Prop where
  issue : ∃ issue ∈ issued, issue.credential = access.credential
  grant : ∃ grant ∈ granted, Lineage issued access.credential grant.credential ∧ grant.Sound env ∧
    (∀ scope ∈ access.requiredScopes, scope ∈ grant.scopes) ∧
    apiAllowlistMatches env access.clientIp grant.allowedIps = true

theorem Within.mono {issued issued' : List Issue} {granted granted' : List Grant} {access : Access}
    (h : Within env issued granted access) (hissued : issued ⊆ issued') (hgranted : granted ⊆ granted') :
    Within env issued' granted' access := by
  obtain ⟨issue, hissue, hcredential⟩ := h.issue
  obtain ⟨grant, hgrant, hlineage, hrest⟩ := h.grant
  exact ⟨⟨issue, hissued hissue, hcredential⟩, grant, hgranted hgrant, hlineage.mono hissued, hrest⟩

/-- **The invariant**: every right can be traced back. -/
structure Traced (s : ApiState ι) : Prop where
  rows : ∀ keyId row, s.keys.get? keyId = some row → RowTraced s.issued s.granted keyId row
  reading : ∀ i read, s.reading.get? i = some read → RowTraced s.issued s.granted read.1 read.2
  pending : ∀ i access, s.pending.get? i = some access → Within env s.issued s.granted access
  accepted : ∀ access ∈ s.accepted, Within env s.issued s.granted access
  sound : ∀ grant ∈ s.granted, grant.Sound env

variable {s s' : ApiState ι}

/-- **What a step may leave**, with the ids that it draws. Rows keep their rights or have rights that can be traced, and are
active only if they were or are new; a request is under way if it was or if its row was active. -/
structure Leaves (drawn : List String) (s s' : ApiState ι) : Prop where
  issued : s.issued ⊆ s'.issued
  granted : s.granted ⊆ s'.granted
  rows : ∀ keyId row, s'.keys.get? keyId = some row →
    (∃ old, s.keys.get? keyId = some old ∧ SameRights old row) ∨ RowTraced s'.issued s'.granted keyId row
  active : ∀ keyId row, s'.keys.get? keyId = some row → row.isActive = true →
    keyId ∈ drawn ∨ ∃ old, s.keys.get? keyId = some old ∧ old.isActive = true
  reading : ∀ i read, s'.reading.get? i = some read →
    s.reading.get? i = some read ∨ s.keys.get? read.1 = some read.2
  pending : ∀ i access, s'.pending.get? i = some access →
    s.pending.get? i = some access ∨
      Within env s.issued s.granted access ∧ ∃ row, s.keys.get? access.credential.1 = some row ∧ row.isActive = true
  accepted : ∀ access ∈ s'.accepted, access ∈ s.accepted ∨ ∃ i, s.pending.get? i = some access
  sound : ∀ grant ∈ s'.granted, grant ∈ s.granted ∨ grant.Sound env

variable {env} {drawn : List String}

/-- **The step lemma.** -/
theorem Traced.step (h : Traced env s) (hstep : Leaves env drawn s s') : Traced env s' where
  rows keyId row hrow := by
    rcases hstep.rows keyId row hrow with ⟨old, hold, hsame⟩ | htraced
    · exact ((h.rows keyId old hold).mono hstep.issued hstep.granted).same hsame
    · exact htraced
  reading i read hread := by
    rcases hstep.reading i read hread with hold | hrow
    · exact (h.reading i read hold).mono hstep.issued hstep.granted
    · exact (h.rows _ _ hrow).mono hstep.issued hstep.granted
  pending i access haccess := by
    rcases hstep.pending i access haccess with hold | ⟨hwithin, -⟩
    · exact (h.pending i access hold).mono env hstep.issued hstep.granted
    · exact hwithin.mono env hstep.issued hstep.granted
  accepted access haccess := by
    rcases hstep.accepted access haccess with hold | ⟨i, hpending⟩
    · exact (h.accepted access hold).mono env hstep.issued hstep.granted
    · exact (h.pending i access hpending).mono env hstep.issued hstep.granted
  sound grant hgrant := (hstep.sound grant hgrant).elim (h.sound grant) id

/-- Nothing but the caches and the clock. -/
theorem Leaves.of_eq (hkeys : s'.keys = s.keys) (hreading : s'.reading = s.reading) (hpending : s'.pending = s.pending)
    (hissued : s'.issued = s.issued) (hgranted : s'.granted = s.granted) (haccepted : s'.accepted = s.accepted) :
    Leaves env drawn s s' where
  issued := by rw [hissued]; exact List.Subset.refl _
  granted := by rw [hgranted]; exact List.Subset.refl _
  rows keyId row hrow := .inl ⟨row, hkeys ▸ hrow, rfl, rfl, rfl, rfl⟩
  active keyId row hrow hactive := .inr ⟨row, hkeys ▸ hrow, hactive⟩
  reading i read hread := .inl (hreading ▸ hread)
  pending i access haccess := .inl (hpending ▸ haccess)
  accepted access haccess := .inl (haccepted ▸ haccess)
  sound grant hgrant := .inl (hgranted ▸ hgrant)

/-- An administrator's request ends. -/
theorem Leaves.ends_reading (h : Leaves env drawn s s') (i : ι) :
    Leaves env drawn s { s' with reading := s.reading.deleteWhere (· = i) } :=
  { h with reading := fun _ _ hread => .inl (KeyedTable.get?_deleteWhere_eq_some.mp hread).2 }

/-- A caller's request ends. -/
theorem Leaves.ends_pending (h : Leaves env drawn s s') (i : ι) :
    Leaves env drawn s { s' with pending := s.pending.deleteWhere (· = i) } :=
  { h with pending := fun _ _ haccess => .inl (KeyedTable.get?_deleteWhere_eq_some.mp haccess).2 }

/-- The statement of a flush ends. -/
theorem Leaves.ends_flushing (h : Leaves env drawn s s') (flushing : KeyedTable ι (Int × String × String)) :
    Leaves env drawn s { s' with flushing } :=
  { h with }

/-- An assignment that leaves the rights of a row alone and does not activate it. -/
structure KeepsRights (f : ApiKey → ApiKey) : Prop where
  same : ∀ row, SameRights row (f row)
  active : ∀ row, (f row).isActive = true → row.isActive = true

theorem Leaves.setKey (h : Leaves env drawn s s') (keyId : String) {f : ApiKey → ApiKey} (hf : KeepsRights f) :
    Leaves env drawn s { s' with keys := setKey s'.keys keyId f } := by
  refine { h with rows := fun key row hrow => ?_, active := fun key row hrow hactive => ?_ }
  · dsimp only at hrow ⊢
    rw [get?_setKey] at hrow
    split at hrow
    · obtain ⟨mid, hmid, rfl⟩ := Option.map_eq_some_iff.mp hrow
      have hsame := hf.same mid
      rcases h.rows key mid hmid with ⟨old, hold, hbefore⟩ | htraced
      · exact .inl ⟨old, hold, hsame.name.trans hbefore.name, hsame.secretHash.trans hbefore.secretHash,
          hsame.scopes.trans hbefore.scopes, hsame.allowedIps.trans hbefore.allowedIps⟩
      · exact .inr (htraced.same hsame)
    · exact h.rows key row hrow
  · dsimp only at hrow
    rw [get?_setKey] at hrow
    split at hrow
    · obtain ⟨mid, hmid, rfl⟩ := Option.map_eq_some_iff.mp hrow
      exact h.active key mid hmid (hf.active mid hactive)
    · exact h.active key row hrow hactive

theorem keepsRights_revokeRow (now : Int) (actor : String) : KeepsRights (revokeRow now actor) :=
  ⟨fun _ => ⟨rfl, rfl, rfl, rfl⟩, fun _ h => by cases h⟩

theorem keepsRights_touchRow (now : Int) (clientIp : String) : KeepsRights (touchRow now clientIp) := by
  refine ⟨fun row => ?_, fun row h => ?_⟩
  · unfold touchRow
    split <;> exact ⟨rfl, rfl, rfl, rfl⟩
  · unfold touchRow at h
    split at h <;> exact h

theorem Leaves.refl (drawn : List String) (s : ApiState ι) : Leaves env drawn s s := .of_eq rfl rfl rfl rfl rfl rfl

/-- Rows are deleted. -/
theorem Leaves.fewer {keys : ApiKeys} (hkeys : ∀ keyId row, keys.get? keyId = some row → s.keys.get? keyId = some row) :
    Leaves env drawn s { s with keys } :=
  { Leaves.refl drawn s with
    rows := fun keyId row hrow => .inl ⟨row, hkeys keyId row hrow, rfl, rfl, rfl, rfl⟩
    active := fun keyId row hrow hactive => .inr ⟨row, hkeys keyId row hrow, hactive⟩ }

omit [DecidableEq ι] in
/-- A row is stored under an id that is drawn. -/
theorem active_put {keyId : String} {new : ApiKey} (hdrawn : keyId ∈ drawn) (key : String) (row : ApiKey)
    (hrow : (s.keys.put keyId new).get? key = some row) (hactive : row.isActive = true) :
    key ∈ drawn ∨ ∃ old, s.keys.get? key = some old ∧ old.isActive = true := by
  rw [KeyedTable.get?_put] at hrow
  split at hrow
  · next heq => exact .inl (heq ▸ hdrawn)
  · exact .inr ⟨row, hrow, hactive⟩

omit [DecidableEq Address] in
/-- What is clean can be granted. -/
theorem sound_of_clean (laws : env.Canonical) {grant : Grant} {value : String} {values tokens : List String}
    (hname : apiCleanName value = .ok grant.name) (hscopes : grant.scopes = apiCleanScopes values)
    (hsome : grant.scopes ≠ []) (hallowed : apiNormalizeAllowlist env tokens = .ok grant.allowedIps) :
    grant.Sound env where
  name := (apiCleanName_clean hname).1
  scopes := hscopes ▸ cleanScopes_apiCleanScopes values
  some_scope := hsome
  allowedIps := apiNormalizeAllowlist_clean laws hallowed

/-- **A new key** has the rights that were entered for it. -/
theorem Leaves.create (laws : env.Canonical) (s : ApiState ι) (actor : String) (form : KeyForm) (draw : Draw) :
    Leaves env [draw.keyId] s (s.create env actor form draw) := by
  unfold ApiState.create
  split
  · exact .refl _ s
  · next keys hkeys =>
      obtain ⟨new, hcreated⟩ := createKey_eq_ok env hkeys
      obtain ⟨row, hfree, rfl, hhash, -, hname, hscopes, hsome, hallowed⟩ := apiCreateKeyRecord_eq_ok env hcreated
      have hgrant : grantAt (s.keys.put draw.keyId row) draw.keyId =
          [⟨(draw.keyId, row.secretHash), row.name, row.scopes, row.allowedIps⟩] := by
        unfold grantAt
        rw [KeyedTable.get?_put, if_pos rfl]
        rfl
      rw [hgrant]
      refine { Leaves.refl [draw.keyId] s with
        issued := List.subset_append_left _ _, granted := List.subset_append_left _ _
        rows := fun keyId row' hrow => ?_, active := active_put (List.mem_singleton_self _)
        sound := fun grant hmem => ?_ }
      · dsimp only at hrow
        rw [KeyedTable.get?_put] at hrow
        split at hrow
        · next hkey =>
            obtain rfl := Option.some.inj hrow
            subst hkey
            refine .inr ⟨⟨_, List.mem_append_right _ (List.mem_singleton_self _), by rw [hhash]⟩, _,
              List.mem_append_right _ (List.mem_singleton_self _), .refl _, rfl, rfl, rfl⟩
        · exact .inl ⟨row', hrow, rfl, rfl, rfl, rfl⟩
      · rcases List.mem_append.mp hmem with hold | hnew
        · exact .inl hold
        · obtain rfl := List.mem_singleton.mp hnew
          exact .inr (sound_of_clean laws hname hscopes hsome hallowed)

/-- **An edit** gives a key the rights of its form. -/
theorem Leaves.edit (laws : env.Canonical) (h : Traced env s) (keyId : String) (key : ApiKey) (form : KeyForm) :
    Leaves env drawn s (s.edit env keyId key form) := by
  unfold ApiState.edit
  split
  · exact .refl _ s
  · next f hf =>
      obtain ⟨name, allowedIps, expiresAt, note, hname, hsome, hallowed, rfl⟩ := editKey_eq_ok env hf
      refine { Leaves.refl drawn s with
        granted := List.subset_append_left _ _, rows := fun key' row hrow => ?_
        active := fun key' row hrow hactive => ?_, sound := fun grant hmem => ?_ }
      · dsimp only at hrow ⊢
        have hset := get?_setKey s.keys keyId key'
        rw [hset] at hrow
        split at hrow
        · next hkey =>
            subst hkey
            obtain ⟨old, hold, rfl⟩ := Option.map_eq_some_iff.mp hrow
            have htraced := h.rows key' old hold
            refine .inr ⟨htraced.issue, ⟨(key', old.secretHash), name, apiCleanScopes form.scopes, allowedIps⟩,
              List.mem_append_right _ ?_, .refl _, rfl, rfl, rfl⟩
            rw [grantAt, hset, if_pos rfl, hold]
            exact List.mem_singleton_self _
        · exact .inl ⟨row, hrow, rfl, rfl, rfl, rfl⟩
      · dsimp only at hrow
        rw [get?_setKey] at hrow
        split at hrow
        · obtain ⟨old, hold, rfl⟩ := Option.map_eq_some_iff.mp hrow
          exact .inr ⟨old, hold, hactive⟩
        · exact .inr ⟨row, hrow, hactive⟩
      · rcases List.mem_append.mp hmem with hold | hnew
        · exact .inl hold
        · rw [grantAt, get?_setKey, if_pos rfl] at hnew
          cases hget : s.keys.get? keyId with
          | none => rw [hget] at hnew; cases hnew
          | some row =>
              rw [hget] at hnew
              obtain rfl := List.mem_singleton.mp hnew
              exact .inr (sound_of_clean laws hname rfl hsome hallowed)

theorem Leaves.revoke (s : ApiState ι) (keyId : String) (key : ApiKey) (actor : String) :
    Leaves env drawn s (s.revoke keyId key actor) := by
  unfold ApiState.revoke revokeKey
  cases key.isActive with
  | true => exact (Leaves.refl drawn s).setKey keyId (keepsRights_revokeRow s.clock actor)
  | false => exact .refl _ s

/-- **A rotation** gives the new key the rights that the old one had when it was read. -/
theorem Leaves.rotate (h : Traced env s) {keyId : String} {key : ApiKey} (hkey : RowTraced s.issued s.granted keyId key)
    (actor : String) (draw : Draw) : Leaves env [draw.keyId] s (s.rotate env keyId key actor draw) := by
  unfold ApiState.rotate
  split
  · exact .refl _ s
  · next keys hkeys =>
      obtain ⟨created, hcreated, rfl⟩ := rotateKey_eq_ok env hkeys
      obtain ⟨row, hfree, rfl, hhash, -, hname, hscopes, hsome, hallowed⟩ := apiCreateKeyRecord_eq_ok env hcreated
      obtain ⟨grant, hgrant, hlineage, hkeyName, hkeyScopes, hkeyAllowed⟩ := hkey.grant
      have hsound := h.sound grant hgrant
      -- The checks leave what they have let through before.
      have hsameName : row.name = grant.name := by
        have hne := (apiCleanName_clean hsound.name).2
        dsimp only [rotatedKey] at hname
        rw [hkeyName, if_neg hne, hsound.name] at hname
        exact (Except.ok.inj hname).symm
      have hsameScopes : row.scopes = grant.scopes := by
        rw [hscopes, rotatedKey, hkeyScopes, hsound.scopes.apiCleanScopes_eq]
      have hsameAllowed : row.allowedIps = grant.allowedIps := by
        dsimp only [rotatedKey] at hallowed
        rw [hkeyAllowed, hsound.allowedIps] at hallowed
        exact (Except.ok.inj hallowed).symm
      have hcreate : Leaves env [draw.keyId] s { s with
          keys := s.keys.put draw.keyId row
          issued := s.issued ++ [⟨(draw.keyId, env.secretHash draw.secret), some (keyId, key.secretHash)⟩] } := by
        refine { Leaves.refl [draw.keyId] s with
          issued := List.subset_append_left _ _, rows := fun key' row' hrow => ?_
          active := active_put (List.mem_singleton_self _) }
        dsimp only at hrow ⊢
        rw [KeyedTable.get?_put] at hrow
        split at hrow
        · next hnew =>
            obtain rfl := Option.some.inj hrow
            subst hnew
            have hissue : (⟨(draw.keyId, env.secretHash draw.secret), some (keyId, key.secretHash)⟩ : Issue) ∈
                s.issued ++ [⟨(draw.keyId, env.secretHash draw.secret), some (keyId, key.secretHash)⟩] :=
              List.mem_append_right _ (List.mem_singleton_self _)
            refine .inr ⟨⟨_, hissue, by rw [hhash]⟩, grant, hgrant, ?_, hsameName, hsameScopes, hsameAllowed⟩
            rw [hhash]
            exact .rotated hissue rfl (hlineage.mono (List.subset_append_left _ _))
        · exact .inl ⟨row', hrow, rfl, rfl, rfl, rfl⟩
      exact hcreate.setKey keyId (keepsRights_revokeRow s.clock actor)

/-- **A request that authenticates** is within the rights of the row it read. -/
theorem Leaves.present (h : Traced env s) (i : ι) (request : ApiRequest) : Leaves env drawn s (s.present env i request) := by
  unfold ApiState.present
  split
  · exact .refl _ s
  · next keyId key hauth =>
      obtain ⟨hget, secret, -, hpasses⟩ := apiAuthenticate_eq_ok env hauth
      refine { Leaves.refl drawn s with pending := fun j access haccess => ?_ }
      dsimp only at haccess
      rw [KeyedTable.get?_put] at haccess
      split at haccess
      · obtain rfl := Option.some.inj haccess
        have htraced := h.rows keyId key hget
        obtain ⟨grant, hgrant, hlineage, -, hscopes, hallowed⟩ := htraced.grant
        refine .inr ⟨⟨htraced.issue, grant, hgrant, hlineage, h.sound grant hgrant, fun scope hscope => ?_, ?_⟩, key, hget,
          hpasses.active⟩
        · rw [← hscopes]
          exact hpasses.scopes scope hscope
        · rw [← hallowed]
          exact hpasses.address
      · exact .inl haccess

theorem Leaves.allow {i : ι} {access : Access} (hpending : s.pending.get? i = some access) :
    Leaves env drawn s (s.allow env i access) := by
  have haccepted : Leaves env drawn s { s with accepted := s.accepted ++ [access] } := by
    refine { Leaves.refl drawn s with accepted := fun other hother => ?_ }
    rcases List.mem_append.mp hother with hold | hnew
    · exact .inl hold
    · exact .inr ⟨i, List.mem_singleton.mp hnew ▸ hpending⟩
  unfold ApiState.allow
  dsimp only
  split
  · split
    · exact { haccepted with }
    · exact { haccepted with }
  · exact .of_eq rfl rfl rfl rfl rfl rfl

/-- The ids that a step draws. -/
def ApiStep.draws : ApiStep ι → List String
  | .create _ _ draw => [draw.keyId]
  | .rotate _ _ draw => [draw.keyId]
  | _ => []

/-- **Every step** leaves only rights that can be traced. -/
theorem leaves_of_step (laws : env.Canonical) (h : Traced env s) {l : ApiStep ι}
    (hstep : (apiSystem env ι).step s l = some s') : Leaves env l.draws s s' := by
  cases l with
  | tick seconds =>
      obtain rfl := Option.some.inj hstep
      exact .of_eq rfl rfl rfl rfl rfl rfl
  | create actor form draw =>
      obtain rfl := Option.some.inj hstep
      exact .create laws s actor form draw
  | read i keyId =>
      simp only [apiSystem] at hstep
      split at hstep
      · cases hstep
      · obtain rfl := Option.some.inj hstep
        split
        · exact .refl _ s
        · next key hget =>
            refine { Leaves.refl [] s with reading := fun j read hread => ?_ }
            dsimp only at hread
            rw [KeyedTable.get?_put] at hread
            split at hread
            · obtain rfl := Option.some.inj hread
              exact .inr hget
            · exact .inl hread
  | edit i form =>
      obtain ⟨read, hread, rfl⟩ := Option.map_eq_some_iff.mp hstep
      exact (Leaves.edit laws h read.1 read.2 form).ends_reading i
  | revoke i actor =>
      obtain ⟨read, hread, rfl⟩ := Option.map_eq_some_iff.mp hstep
      exact (Leaves.revoke s read.1 read.2 actor).ends_reading i
  | rotate i actor draw =>
      obtain ⟨read, hread, rfl⟩ := Option.map_eq_some_iff.mp hstep
      exact (Leaves.rotate h (h.reading i read hread) actor draw).ends_reading i
  | delete keyId =>
      obtain rfl := Option.some.inj hstep
      exact .fewer fun key row hrow => (KeyedTable.get?_deleteWhere_eq_some.mp hrow).2
  | forget keyId =>
      obtain rfl := Option.some.inj hstep
      exact .of_eq rfl rfl rfl rfl rfl rfl
  | clearKeys =>
      obtain rfl := Option.some.inj hstep
      exact .fewer fun key row hrow => by cases hrow
  | clearWindows =>
      obtain rfl := Option.some.inj hstep
      exact .of_eq rfl rfl rfl rfl rfl rfl
  | present i request =>
      simp only [apiSystem] at hstep
      split at hstep
      · cases hstep
      · obtain rfl := Option.some.inj hstep
        exact .present h i request
  | allow i =>
      obtain ⟨access, haccess, rfl⟩ := Option.map_eq_some_iff.mp hstep
      exact (Leaves.allow haccess).ends_pending i
  | flush i =>
      obtain ⟨use, huse, rfl⟩ := Option.map_eq_some_iff.mp hstep
      exact ((Leaves.refl [] s).setKey use.2.1 (keepsRights_touchRow use.1 use.2.2)).ends_flushing _

theorem Traced.of_reachable (laws : env.Canonical) (h : System.Reachable (apiSystem env ι) System.AnyStep s) :
    Traced env s := by
  refine h.invariant (fun s hinit => ?_) fun _ _ _ _ htraced _ hstep => htraced.step (leaves_of_step laws htraced hstep)
  obtain ⟨hkeys, hreading, hpending, -, hgranted, haccepted⟩ := hinit
  refine ⟨fun keyId row hrow => ?_, fun i read hread => ?_, fun i access haccess => ?_, ?_, ?_⟩
  · have hmem := KeyedTable.mem_rows_of_get? hrow
    rw [hkeys] at hmem
    cases hmem
  · have hmem := KeyedTable.mem_rows_of_get? hread
    rw [hreading] at hmem
    cases hmem
  · have hmem := KeyedTable.mem_rows_of_get? haccess
    rw [hpending] at hmem
    cases hmem
  · rw [haccepted]
    simp
  · rw [hgranted]
    simp

/-- **Accepted requests are within what was granted.** In any interleaving of the pages of administrators and of the requests of
callers, an accepted request presented a secret that was issued, asked for scopes and came from an address that one grant has,
and that grant was made to the key or to one it descends from by rotations. -/
theorem accepted_within_grant (laws : env.Canonical) (h : System.Reachable (apiSystem env ι) System.AnyStep s) :
    ∀ access ∈ s.accepted, Within env s.issued s.granted access :=
  (Traced.of_reachable laws h).accepted

/-! ## What is over stays over -/

variable (env) in
/-- The step takes a key away: it is revoked or rotated by a request that read it active, or deleted. -/
def ApiStep.Ends (s : ApiState ι) (keyId : String) : ApiStep ι → Prop
  | .revoke i _ => ∃ key, s.reading.get? i = some (keyId, key) ∧ key.isActive = true
  | .rotate i actor draw => ∃ key keys, s.reading.get? i = some (keyId, key) ∧
      rotateKey env s.clock actor keyId key draw s.keys = .ok keys
  | .delete keyId' => keyId' = keyId
  | .clearKeys => True
  | _ => False

/-- No row of the id is active. -/
def Inactive (keyId : String) (s : ApiState ι) : Prop := ∀ row, s.keys.get? keyId = some row → row.isActive = false

theorem inactive_setKey {keys : ApiKeys} {keyId : String} {f : ApiKey → ApiKey} (hf : ∀ row, (f row).isActive = false)
    {row : ApiKey} (hrow : (setKey keys keyId f).get? keyId = some row) : row.isActive = false := by
  rw [get?_setKey, if_pos rfl] at hrow
  obtain ⟨old, -, rfl⟩ := Option.map_eq_some_iff.mp hrow
  exact hf old

theorem inactive_of_ends {keyId : String} {l : ApiStep ι} (hend : l.Ends env s keyId)
    (hstep : (apiSystem env ι).step s l = some s') : Inactive keyId s' := by
  intro row hrow
  cases l with
  | revoke i actor =>
      obtain ⟨key, hread, hactive⟩ := hend
      obtain ⟨read, hread', rfl⟩ := Option.map_eq_some_iff.mp hstep
      obtain rfl := Option.some.inj (hread.symm.trans hread')
      simp only [ApiState.revoke, revokeKey, hactive, if_pos] at hrow
      exact inactive_setKey (fun _ => rfl) hrow
  | rotate i actor draw =>
      obtain ⟨key, keys, hread, hkeys⟩ := hend
      obtain ⟨read, hread', rfl⟩ := Option.map_eq_some_iff.mp hstep
      obtain rfl := Option.some.inj (hread.symm.trans hread')
      simp only [ApiState.rotate, hkeys] at hrow
      obtain ⟨created, -, rfl⟩ := rotateKey_eq_ok env hkeys
      exact inactive_setKey (fun _ => rfl) hrow
  | delete keyId' =>
      obtain rfl : keyId' = keyId := hend
      obtain rfl := Option.some.inj hstep
      exact absurd (KeyedTable.get?_deleteWhere_eq_some.mp hrow).1 (by simp)
  | clearKeys =>
      obtain rfl := Option.some.inj hstep
      cases hrow
  | tick | create | read | edit | forget | clearWindows | present | allow | flush => cases hend

variable (env) in
/-- A key that is over, and what its requests may still be: accepted before, or under way. -/
structure Over (keyId : String) (before s : ApiState ι) : Prop where
  traced : Traced env s
  inactive : Inactive keyId s
  pending : ∀ i access, s.pending.get? i = some access → access.credential.1 = keyId →
    ∃ j, before.pending.get? j = some access
  accepted : ∀ access ∈ s.accepted, access.credential.1 = keyId →
    access ∈ before.accepted ∨ ∃ j, before.pending.get? j = some access

theorem Over.step (laws : env.Canonical) {keyId : String} {before : ApiState ι} (h : Over env keyId before s)
    {l : ApiStep ι} (hdraws : keyId ∉ l.draws) (hstep : (apiSystem env ι).step s l = some s') :
    Over env keyId before s' := by
  have hleaves := leaves_of_step laws h.traced hstep
  refine ⟨h.traced.step hleaves, fun row hrow => ?_, fun i access haccess hkey => ?_, fun access haccess hkey => ?_⟩
  · by_contra hactive
    rcases hleaves.active keyId row hrow (by simpa using hactive) with hdrawn | ⟨old, hold, hwas⟩
    · exact hdraws hdrawn
    · rw [h.inactive old hold] at hwas
      cases hwas
  · rcases hleaves.pending i access haccess with hold | ⟨-, row, hrow, hactive⟩
    · exact h.pending i access hold hkey
    · -- A request that reads the row now finds it inactive.
      rw [hkey] at hrow
      rw [h.inactive row hrow] at hactive
      cases hactive
  · rcases hleaves.accepted access haccess with hold | ⟨i, hpending⟩
    · exact h.accepted access hold hkey
    · exact .inr (h.pending i access hpending hkey)

/-- **A key that is taken away stays out.** After its revocation, its rotation or its deletion, in every continuation that does
not draw its id again, the only requests for it that are accepted are those that had authenticated before. -/
theorem ended_key_stays_out (laws : env.Canonical) (h : System.Reachable (apiSystem env ι) System.AnyStep s)
    {keyId : String} {l : ApiStep ι} (hend : l.Ends env s keyId)
    (hstep : (apiSystem env ι).step s l = some s') {labels : List (ApiStep ι)} {s'' : ApiState ι}
    (hdraws : ∀ l' ∈ labels, keyId ∉ l'.draws) (hrun : (apiSystem env ι).exec System.AnyStep s' labels = some s'') :
    Inactive keyId s'' ∧ ∀ access ∈ s''.accepted, access.credential.1 = keyId →
      access ∈ s'.accepted ∨ ∃ j, s'.pending.get? j = some access := by
  have hover : Over env keyId s' s' :=
    ⟨(Traced.of_reachable laws h).step (leaves_of_step laws (Traced.of_reachable laws h) hstep),
      inactive_of_ends hend hstep, fun i _ haccess _ => ⟨i, haccess⟩, fun _ haccess _ => .inl haccess⟩
  have hafter : Over env keyId s' s'' :=
    System.exec_keeps (fun _ l' _ hl' hkept _ hnext => hkept.step laws (hdraws l' hl') hnext) hover hrun
  exact ⟨hafter.inactive, hafter.accepted⟩

end Traced

/-! ## A rotation while a request is under way -/

/-- SHA-256 of two secrets, and one address. -/
def sampleEnv : ApiEnv String String where
  secretHash secret :=
    if secret = "__________________________________________8" then
      "225f7e75329dd45aa354975d73987319309393af3a4c6733bc13601a4f1b8796"
    else if secret = "AAECAwQFBgcICQoLDA0ODxAREhMUFRYXGBkaGxwdHh8" then
      "ea866a757e4c38babfa8127cbe9a409d3e1f93a00ff1488ff735fcf917afffd0"
    else ""
  intOf text := if text = "30" then some 30 else none
  ipAddress text := if text = "192.0.2.1" then some text else none
  ipNetwork _ := none
  addressText text := text
  networkText text := text
  contains _ _ := false
  rateLimit := 120
  flushSeconds := 60

theorem sampleEnv_canonical : sampleEnv.Canonical where
  address token address hstrip hslash h := by
    simp only [sampleEnv] at h ⊢
    split at h
    · next heq =>
        obtain rfl := Option.some.inj h
        subst heq
        exact ⟨hstrip, by decide, hslash, rfl⟩
    · cases h
  network token network h := by cases h

/-- The draws of a key and of the key that it is rotated to. -/
def firstDraw : Draw := .uniform 171 255

def secondDraw : Draw := .uniform 18 52

/-- A request with the token of a draw. -/
def requestOf (draw : Draw) : ApiRequest :=
  ⟨"Bearer " ++ (apiGenerateToken draw).2.2, "192.0.2.1", ["vm:read"]⟩

def sampleForm : KeyForm := ⟨"  Billing   export ", ["vm:read", "VM:READ ", "root"], "192.0.2.1, 192.0.2.1", "30", ""⟩

/-- No key yet. -/
def noKeys : ApiState Nat := ⟨.empty, 1700000000, .empty, .empty, .empty, .empty, .empty, [], [], []⟩

/-- A key is created, read for a rotation, and used before the rotation is written. -/
def beforeRotation : List (ApiStep Nat) :=
  [.create "admin" sampleForm firstDraw, .read 0 firstDraw.keyId, .present 0 (requestOf firstDraw)]

/-- The request that was under way is accepted, the next one with the old key is not, and one with the new key is. -/
def afterRotation : List (ApiStep Nat) :=
  [.allow 0, .present 1 (requestOf firstDraw), .tick 5, .present 2 (requestOf secondDraw), .allow 2]

/-- The state at the rotation, after it, and at the end. -/
theorem sample_runs : ∃ s s' s'' read,
    (apiSystem sampleEnv Nat).exec System.AnyStep noKeys beforeRotation = some s ∧ s.reading.get? 0 = some read ∧
      read.1 = firstDraw.keyId ∧ (rotateKey sampleEnv s.clock "admin" firstDraw.keyId read.2 secondDraw s.keys).isOk = true ∧
      (apiSystem sampleEnv Nat).step s (.rotate 0 "admin" secondDraw) = some s' ∧
      (apiSystem sampleEnv Nat).exec System.AnyStep s' afterRotation = some s'' ∧ s''.accepted.length = 2 := by
  have hruns : (((apiSystem sampleEnv Nat).exec System.AnyStep noKeys beforeRotation).bind fun s =>
      (s.reading.get? 0).bind fun read => ((apiSystem sampleEnv Nat).step s (.rotate 0 "admin" secondDraw)).bind fun s' =>
        ((apiSystem sampleEnv Nat).exec System.AnyStep s' afterRotation).map fun s'' =>
          (decide (read.1 = firstDraw.keyId),
            (rotateKey sampleEnv s.clock "admin" firstDraw.keyId read.2 secondDraw s.keys).isOk, s''.accepted.length)) =
      some (true, true, 2) := by
    decide +kernel
  obtain ⟨s, hs, hrest⟩ := Option.bind_eq_some_iff.mp hruns
  obtain ⟨read, hread, hrest⟩ := Option.bind_eq_some_iff.mp hrest
  obtain ⟨s', hs', hrest⟩ := Option.bind_eq_some_iff.mp hrest
  obtain ⟨s'', hs'', heq⟩ := Option.map_eq_some_iff.mp hrest
  obtain ⟨hkey, heq⟩ := Prod.mk.inj heq
  obtain ⟨hok, hlength⟩ := Prod.mk.inj heq
  exact ⟨s, s', s'', read, hs, hread, of_decide_eq_true hkey, hok, hs', hs'', hlength⟩

theorem accepted_within_grant_sample :
    ∃ s, (apiSystem sampleEnv Nat).exec System.AnyStep noKeys
        (beforeRotation ++ .rotate 0 "admin" secondDraw :: afterRotation) = some s ∧
      s.accepted.length = 2 ∧ ∀ access ∈ s.accepted, Within sampleEnv s.issued s.granted access := by
  obtain ⟨s, s', s'', read, hs, -, -, -, hs', hs'', hlength⟩ := sample_runs
  have hrun : (apiSystem sampleEnv Nat).exec System.AnyStep noKeys
      (beforeRotation ++ .rotate 0 "admin" secondDraw :: afterRotation) = some s'' := by
    rw [System.exec_append, hs, Option.bind_some, System.exec, if_pos trivial, hs', Option.bind_some, hs'']
  exact ⟨s'', hrun, hlength, accepted_within_grant sampleEnv_canonical
    (System.Reachable.exec (.init ⟨rfl, rfl, rfl, rfl, rfl, rfl⟩) hrun)⟩

theorem ended_key_stays_out_sample :
    ∃ s s' s'', (apiSystem sampleEnv Nat).exec System.AnyStep noKeys beforeRotation = some s ∧
      (apiSystem sampleEnv Nat).step s (.rotate 0 "admin" secondDraw) = some s' ∧
      (apiSystem sampleEnv Nat).exec System.AnyStep s' afterRotation = some s'' ∧
      Inactive firstDraw.keyId s'' ∧ ∀ access ∈ s''.accepted, access.credential.1 = firstDraw.keyId →
        access ∈ s'.accepted ∨ ∃ j, s'.pending.get? j = some access := by
  obtain ⟨s, s', s'', read, hs, hread, hkey, hok, hs', hs'', -⟩ := sample_runs
  have hend : (ApiStep.rotate 0 "admin" secondDraw).Ends sampleEnv s firstDraw.keyId := by
    cases hrotate : rotateKey sampleEnv s.clock "admin" firstDraw.keyId read.2 secondDraw s.keys with
    | error message => rw [hrotate] at hok; cases hok
    | ok keys => exact ⟨read.2, keys, by rw [← hkey]; exact hread, hrotate⟩
  exact ⟨s, s', s'', hs, hs', hs'', ended_key_stays_out sampleEnv_canonical
    (System.Reachable.exec (.init ⟨rfl, rfl, rfl, rfl, rfl, rfl⟩) hs) hend hs' (by simp [afterRotation, ApiStep.draws]) hs''⟩

end VirtInfra.Api
