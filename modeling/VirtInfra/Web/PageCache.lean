import VirtInfra.Lib.RowLocks
import VirtInfra.Lib.Transition

/-!
# `PageCache` — cached pages, and the generation in their keys

A page is cached under the generation its request read, and what deletes or hides data bumps the generation. The bump is
a transaction of its own: a purge bumps while its transaction is still open, a hide after its view has committed. So a
purge's commit can meet pages of the new generation that show the state before it, and after a hide's commit the old
generation is still the current one. `State.exposed` keeps account of both: the commits that met pages of the current
generation and that no bump has followed.
-/

namespace VirtInfra.Web

open Lib

/-! ## Requests, keys and what changes the pages -/

/-- What `_v48140_cached_endpoint` reads of the process and its environment. -/
structure CacheConfig where
  pageCacheEnabled : Bool
  pageCacheTTL : Nat
  sha256 : String → String

/-- What the wrapper reads of a request and its session. -/
structure PageRequest where
  endpointName : String
  fullPath : String
  user : String
  method : String
  nocache : Option String
  deriving DecidableEq

/-- The parts of `bw:v48140:page:{generation}:{slot}:{digest}`. -/
structure Key where
  generation : Nat
  slot : Nat
  digest : String
  deriving DecidableEq

def CacheConfig.key (config : CacheConfig) (request : PageRequest) (generation now : Nat) : Key where
  generation
  slot := now / max 1 config.pageCacheTTL
  digest := config.sha256 (request.endpointName ++ "|" ++ request.fullPath ++ "|" ++ request.user)

/-- The request goes to the view without the cache. -/
def CacheConfig.skips (config : CacheConfig) (request : PageRequest) : Bool :=
  !config.pageCacheEnabled || request.method ≠ "GET" || request.nocache = some "1"

/-- Where a request stands. `rendering` begins with the first read of the view; a page is known by the number of
    destructive changes that were committed then. -/
inductive RequestPhase
  | arrived
  | keyed (key : Key)
  | missed (key : Key)
  | direct
  | rendering (key : Option Key) (rendered : Nat)
  deriving DecidableEq

namespace RequestPhase

/-- The key under which the request looks up, or stores, its page. -/
def key? : RequestPhase → Option Key
  | keyed key | missed key => some key
  | rendering key _ => key
  | _ => none

/-- The page that is being rendered. -/
def rendered? : RequestPhase → Option Nat
  | rendering _ rendered => some rendered
  | _ => none

end RequestPhase

/-- A page request in a worker. `started` is the number of destructive changes that were committed when it arrived. -/
structure InFlight where
  worker : Nat
  request : PageRequest
  started : Nat
  phase : RequestPhase
  deriving DecidableEq

/-- A purge; the hide and the restore views; and the other callers of the bump (a theme is saved, a cleanup ends). -/
inductive MutationKind
  | purge
  | hide
  | restore
  | other
  deriving DecidableEq

/-- `clearing` is between the two halves of `_v48140_bump_cache_generation`. -/
inductive MutationPhase
  | «open»
  | committed
  | clearing
  | bumped
  deriving DecidableEq

structure Mutation where
  worker : Nat
  kind : MutationKind
  phase : MutationPhase
  deriving DecidableEq

/-- What was returned to a request. -/
structure Response where
  started : Nat
  rendered : Nat
  deriving DecidableEq

/-! ## The state -/

/-- **The database's side** (`version` counts the committed purges and hides, `setting` is the row
    `page_cache_generation` of `admin_settings`), **the caches, and what is under way.** A cache holds, in place of a
    page, the number of changes it shows. -/
structure State where
  version : Nat := 0
  exposed : List Nat := []
  setting : Option Nat := none
  localGenerations : KeyedTable Nat Nat := .empty
  shared : KeyedTable Key Nat := .empty
  workers : KeyedTable (Nat × Key) Nat := .empty
  requests : KeyedTable Nat InFlight := .empty
  mutations : KeyedTable Nat Mutation := .empty
  responses : List Response := []

namespace State

/-- **`_v48140_cache_generation`**, where the database answers. -/
def cacheGeneration (s : State) : Nat := max 1 (s.setting.getD 1)

/-- `_v48140_local_generation` of a worker. -/
def localGeneration (s : State) (worker : Nat) : Nat := max 1 ((s.localGenerations.get? worker).getD 1)

/-- **`_v48140_cache_get`.** A miss in Redis falls through to the worker's own cache. -/
def cacheGet (s : State) (redis : Bool) (worker : Nat) (key : Key) : Option Nat :=
  (if redis then s.shared.get? key else none).or (s.workers.get? (worker, key))

/-- **`_v48140_cache_set`.** -/
def cacheSet (s : State) (redis : Bool) (worker : Nat) (key : Key) (rendered : Nat) : State :=
  if redis then { s with shared := s.shared.put key rendered }
  else { s with workers := s.workers.put (worker, key) rendered }

/-- A page of the current generation is cached somewhere, or being rendered for its key. -/
def occupied (s : State) : Bool :=
  (s.shared.rows.any fun row => row.1.generation = s.cacheGeneration) ||
  (s.workers.rows.any fun row => row.1.2.generation = s.cacheGeneration) ||
  s.requests.rows.any fun row =>
    row.2.phase.rendered?.isSome && row.2.phase.key?.any fun key => key.generation = s.cacheGeneration

/-- A purge or a hide commits. -/
def destroy (s : State) : State :=
  { s with
    version := s.version + 1
    exposed := if s.occupied then (s.version + 1) :: s.exposed else s.exposed }

/-- The second half of `_v48140_bump_cache_generation`. -/
def bump (s : State) : State :=
  { s with setting := some (s.setting.elim 2 (· + 1)), exposed := [] }

/-- The first half: the worker's own generation and cache. -/
def bumpLocal (s : State) (worker : Nat) : State :=
  { s with
    localGenerations := s.localGenerations.put worker ((s.localGenerations.get? worker).getD 1 + 1)
    workers := s.workers.deleteWhere fun key => key.1 = worker }

/-- A request moves on. -/
def goto (s : State) (id : Nat) (r : InFlight) (phase : RequestPhase) : State :=
  { s with requests := s.requests.put id { r with phase } }

/-- A request is answered. -/
def respond (s : State) (id : Nat) (r : InFlight) (rendered : Nat) : State :=
  { s with
    requests := s.requests.deleteWhere (· = id)
    responses := ⟨r.started, rendered⟩ :: s.responses }

def gotoMutation (s : State) (id : Nat) (m : Mutation) (phase : MutationPhase) : State :=
  { s with mutations := s.mutations.put id { m with phase } }

def endMutation (s : State) (id : Nat) : State :=
  { s with mutations := s.mutations.deleteWhere (· = id) }

end State

/-! ## The steps -/

/-- `database` and `redis` say whether the database and Redis answer, `cacheable` whether the response is an HTML page
    with status 200. The two `forget` steps are expiry and eviction, whenever they come. -/
inductive Label
  | arrive (id worker : Nat) (request : PageRequest)
  | readGeneration (id : Nat) (database : Bool) (now : Nat)
  | lookup (id : Nat) (redis : Bool)
  | render (id : Nat)
  | finish (id : Nat) (redis cacheable : Bool)
  | forgetShared (key : Key)
  | forgetLocal (worker : Nat) (key : Key)
  | begin (id worker : Nat) (kind : MutationKind)
  | commit (id : Nat)
  | clearLocal (id : Nat)
  | bump (id : Nat) (database : Bool)
  | leave (id : Nat)

/-- The generation of a request: the setting, stored when it is missing, and the worker's own where the database does not
    answer. -/
def readGeneration (config : CacheConfig) (s : State) (id : Nat) (r : InFlight) (database : Bool) (now : Nat) : State :=
  if database then
    { s.goto id r (.keyed (config.key r.request s.cacheGeneration now)) with
      setting := some (s.setting.getD 1) }
  else s.goto id r (.keyed (config.key r.request (s.localGeneration r.worker) now))

/-- `conn.commit()` of a purge, after its bumps; of a hide or a restore, before its bump and as often as the view commits
    (a bulk action commits its items in turn). -/
def commitMutation (s : State) (id : Nat) (m : Mutation) : Option State :=
  match m.kind, m.phase with
  | .purge, .bumped => some (s.destroy.endMutation id)
  | .hide, .open | .hide, .committed => some (s.destroy.gotoMutation id m .committed)
  | .restore, .open | .restore, .committed => some (s.gotoMutation id m .committed)
  | _, _ => none

/-- A purge bumps inside its transaction, and may bump again (the purge of a node purges its VMs first); a view bumps
    after its commit. -/
def mayBump : MutationKind → MutationPhase → Bool
  | .purge, .open | .purge, .bumped | .hide, .committed | .restore, .committed | .other, .open => true
  | _, _ => false

def afterBump (s : State) (id : Nat) (m : Mutation) : State :=
  match m.kind with
  | .purge => s.gotoMutation id m .bumped
  | _ => s.endMutation id

def step (config : CacheConfig) (s : State) : Label → Option State
  | .arrive id worker request =>
      match s.requests.get? id with
      | some _ => none
      | none =>
          some (s.goto id ⟨worker, request, s.version, .direct⟩ (if config.skips request then .direct else .arrived))
  | .readGeneration id database now => do
      let r ← s.requests.get? id
      match r.phase with
      | .arrived => some (readGeneration config s id r database now)
      | _ => none
  | .lookup id redis => do
      let r ← s.requests.get? id
      match r.phase with
      | .keyed key =>
          match s.cacheGet redis r.worker key with
          | some rendered => some (s.respond id r rendered)
          | none => some (s.goto id r (.missed key))
      | _ => none
  | .render id => do
      let r ← s.requests.get? id
      match r.phase with
      | .missed key => some (s.goto id r (.rendering (some key) s.version))
      | .direct => some (s.goto id r (.rendering none s.version))
      | _ => none
  | .finish id redis cacheable => do
      let r ← s.requests.get? id
      match r.phase with
      | .rendering (some key) rendered =>
          some ((if cacheable then s.cacheSet redis r.worker key rendered else s).respond id r rendered)
      | .rendering none rendered => some (s.respond id r rendered)
      | _ => none
  | .forgetShared key => some { s with shared := s.shared.deleteWhere (· = key) }
  | .forgetLocal worker key => some { s with workers := s.workers.deleteWhere (· = (worker, key)) }
  | .begin id worker kind =>
      match s.mutations.get? id with
      | some _ => none
      | none => some (s.gotoMutation id ⟨worker, kind, .open⟩ .open)
  | .commit id => do
      let m ← s.mutations.get? id
      commitMutation s id m
  | .clearLocal id => do
      let m ← s.mutations.get? id
      if mayBump m.kind m.phase then some ((s.bumpLocal m.worker).gotoMutation id m .clearing) else none
  | .bump id database => do
      let m ← s.mutations.get? id
      match m.phase with
      | .clearing => some (afterBump (if database then s.bump else s) id m)
      | _ => none
  | .leave id => do
      let _ ← s.mutations.get? id
      some (s.endMutation id)

/-- **Page requests and destructive changes, in any order.** The first start of the service: nothing is cached. -/
def pageCache (config : CacheConfig) : System State Label where
  init s := s = {}
  step := step config

/-! ## Which pages are there -/

/-- A page of `key` that shows `rendered` changes is cached, or is being rendered for it. -/
def State.Holds (s : State) (key : Key) (rendered : Nat) : Prop :=
  s.shared.get? key = some rendered ∨ (∃ worker, s.workers.get? (worker, key) = some rendered) ∨
    ∃ id r, s.requests.get? id = some r ∧ r.phase = .rendering (some key) rendered

section

variable {s s' : State} {key key' : Key} {rendered v : Nat} {id worker : Nat} {r : InFlight} {phase : RequestPhase}

theorem occupied_of_holds (h : s.Holds key rendered) (hkey : key.generation = s.cacheGeneration) :
    s.occupied = true := by
  unfold State.occupied
  rw [Bool.or_eq_true, Bool.or_eq_true, List.any_eq_true, List.any_eq_true, List.any_eq_true]
  obtain hshared | ⟨worker, hlocal⟩ | ⟨id, r, hr, hphase⟩ := h
  · exact .inl (.inl ⟨_, KeyedTable.mem_rows_of_get? hshared, by simpa using hkey⟩)
  · exact .inl (.inr ⟨_, KeyedTable.mem_rows_of_get? hlocal, by simpa using hkey⟩)
  · refine .inr ⟨_, KeyedTable.mem_rows_of_get? hr, ?_⟩
    simp [hphase, RequestPhase.key?, RequestPhase.rendered?, hkey]

theorem holds_of_cacheGet {redis : Bool} (h : s.cacheGet redis worker key = some rendered) : s.Holds key rendered := by
  unfold State.cacheGet at h
  rw [Option.or_eq_some_iff] at h
  rcases h with hshared | ⟨-, hlocal⟩
  · cases redis with
    | true => exact .inl hshared
    | false => cases hshared
  · exact .inr (.inl ⟨worker, hlocal⟩)

theorem holds_cacheSet {redis : Bool} (h : (s.cacheSet redis worker key rendered).Holds key' v) :
    s.Holds key' v ∨ (key' = key ∧ v = rendered) := by
  cases redis with
  | true =>
      obtain hshared | hrest := h
      · rw [State.cacheSet, if_pos rfl, KeyedTable.get?_put] at hshared
        split at hshared
        · next heq => exact .inr ⟨heq, (Option.some.inj hshared).symm⟩
        · exact .inl (.inl hshared)
      · exact .inl (.inr hrest)
  | false =>
      obtain hshared | ⟨w, hlocal⟩ | hrest := h
      · exact .inl (.inl hshared)
      · rw [State.cacheSet, if_neg (by simp), KeyedTable.get?_put] at hlocal
        split at hlocal
        · next heq => exact .inr ⟨(Prod.mk.inj heq).2, (Option.some.inj hlocal).symm⟩
        · exact .inl (.inr (.inl ⟨w, hlocal⟩))
      · exact .inl (.inr (.inr hrest))

theorem holds_goto (h : (s.goto id r phase).Holds key rendered) :
    s.Holds key rendered ∨ phase = .rendering (some key) rendered := by
  obtain hshared | hlocal | ⟨i, q, hq, hphase⟩ := h
  · exact .inl (.inl hshared)
  · exact .inl (.inr (.inl hlocal))
  · rw [State.goto, KeyedTable.get?_put] at hq
    split at hq
    · obtain rfl := Option.some.inj hq
      exact .inr hphase
    · exact .inl (.inr (.inr ⟨i, q, hq, hphase⟩))

/-- Caches that only lose pages and requests that only leave hold no new page. -/
theorem holds_of_le (hshared : ∀ k v, s'.shared.get? k = some v → s.shared.get? k = some v)
    (hlocal : ∀ k v, s'.workers.get? k = some v → s.workers.get? k = some v)
    (hrequests : ∀ i q, s'.requests.get? i = some q → s.requests.get? i = some q) (h : s'.Holds key rendered) :
    s.Holds key rendered := by
  obtain hpage | ⟨w, hpage⟩ | ⟨i, q, hq, hphase⟩ := h
  · exact .inl (hshared _ _ hpage)
  · exact .inr (.inl ⟨w, hlocal _ _ hpage⟩)
  · exact .inr (.inr ⟨i, q, hrequests _ _ hq, hphase⟩)

theorem get?_of_deleteWhere {κ ρ : Type} [DecidableEq κ] {t : KeyedTable κ ρ} {p : κ → Bool} (k : κ) (x : ρ)
    (h : (t.deleteWhere p).get? k = some x) : t.get? k = some x := (KeyedTable.get?_deleteWhere_eq_some.mp h).2

/-! ## The invariant -/

/-- **The invariant.** The pages of the current generation lack only commits that are exposed; and no page of a request's
    generation is older than the request. -/
structure CacheInv (s : State) : Prop where
  setting : ∀ g, s.setting = some g → 1 ≤ g
  generations : ∀ key v, s.Holds key v → key.generation ≤ s.cacheGeneration
  keyed : ∀ id r key, s.requests.get? id = some r → r.phase.key? = some key → key.generation ≤ s.cacheGeneration
  current : ∀ key v, s.Holds key v → key.generation = s.cacheGeneration → ∀ c, v < c → c ≤ s.version → c ∈ s.exposed
  served : ∀ id r key, s.requests.get? id = some r → r.phase.key? = some key →
    ∀ key' v, s.Holds key' v → key'.generation = key.generation → r.started ≤ v
  started : ∀ id r, s.requests.get? id = some r → r.started ≤ s.version
  own : ∀ id r v, s.requests.get? id = some r → r.phase.rendered? = some v → r.started ≤ v
  fresh : ∀ x ∈ s.responses, x.started ≤ x.rendered

/-- What a request may be after a step that reads no generation and begins no rendering: a new one, or one that was there,
    with no key and no page it did not have. -/
def Continues (s : State) (r' : InFlight) : Prop :=
  (r'.started = s.version ∧ r'.phase.key? = none ∧ r'.phase.rendered? = none) ∨
    ∃ id r, s.requests.get? id = some r ∧ r'.started = r.started ∧
      (∀ key, r'.phase.key? = some key → r.phase.key? = some key) ∧
      ∀ v, r'.phase.rendered? = some v → r.phase.rendered? = some v

theorem continues_of_get? (h : s.requests.get? id = some r) : Continues s r :=
  .inr ⟨id, r, h, rfl, fun _ hkey => hkey, fun _ hv => hv⟩

theorem CacheInv.init : CacheInv {} := by
  have hholds : ∀ key v, ¬ State.Holds {} key v := by
    rintro key v (h | ⟨w, h⟩ | ⟨i, q, h, -⟩)
    · cases h
    · cases h
    · cases h
  constructor
  case setting => exact fun _ h => by cases h
  case generations => exact fun key v h => absurd h (hholds key v)
  case keyed => exact fun _ _ _ h => by cases h
  case current => exact fun key v h => absurd h (hholds key v)
  case served => exact fun _ _ _ h => by cases h
  case started => exact fun _ _ h => by cases h
  case own => exact fun _ _ _ h => by cases h
  case fresh => exact fun _ h => by cases h

/-- **What leaves the database's side alone and holds no new page keeps the invariant.** -/
theorem CacheInv.mono (hs : CacheInv s) (hsetting : s'.setting = s.setting) (hversion : s'.version = s.version)
    (hexposed : s'.exposed = s.exposed) (hholds : ∀ key v, s'.Holds key v → s.Holds key v)
    (hrequests : ∀ id r, s'.requests.get? id = some r → Continues s r)
    (hresponses : ∀ x ∈ s'.responses, x ∈ s.responses ∨ x.started ≤ x.rendered) : CacheInv s' := by
  have hgeneration : s'.cacheGeneration = s.cacheGeneration := by
    unfold State.cacheGeneration
    rw [hsetting]
  refine ⟨hsetting ▸ hs.setting, fun key v h => ?_, fun id r' key hr' hkey => ?_, fun key v h => ?_,
    fun id r' key hr' hkey key' v h heq => ?_, fun id r' hr' => ?_, fun id r' v hr' hv => ?_, fun x hx => ?_⟩
  · rw [hgeneration]
    exact hs.generations key v (hholds key v h)
  · rw [hgeneration]
    obtain ⟨-, hnone, -⟩ | ⟨i, r, hr, -, hkeys, -⟩ := hrequests id r' hr'
    · rw [hnone] at hkey
      cases hkey
    · exact hs.keyed i r key hr (hkeys key hkey)
  · rw [hgeneration, hversion, hexposed]
    exact hs.current key v (hholds key v h)
  · obtain ⟨-, hnone, -⟩ | ⟨i, r, hr, hstarted, hkeys, -⟩ := hrequests id r' hr'
    · rw [hnone] at hkey
      cases hkey
    · rw [hstarted]
      exact hs.served i r key hr (hkeys key hkey) key' v (hholds key' v h) heq
  · rw [hversion]
    obtain ⟨hstarted, -, -⟩ | ⟨i, r, hr, hstarted, -, -⟩ := hrequests id r' hr'
    · exact hstarted.le
    · rw [hstarted]
      exact hs.started i r hr
  · obtain ⟨-, -, hnone⟩ | ⟨i, r, hr, hstarted, -, hpages⟩ := hrequests id r' hr'
    · rw [hnone] at hv
      cases hv
    · rw [hstarted]
      exact hs.own i r v hr (hpages v hv)
  · exact (hresponses x hx).elim (hs.fresh x) id

/-! ## What each step preserves -/

/-- Mutations hold no pages. -/
theorem CacheInv.gotoMutation (hs : CacheInv s) (id : Nat) (m : Mutation) (phase : MutationPhase) :
    CacheInv (s.gotoMutation id m phase) :=
  hs.mono rfl rfl rfl (fun _ _ h => h) (fun _ _ h => continues_of_get? h) fun _ h => .inl h

theorem CacheInv.endMutation (hs : CacheInv s) (id : Nat) : CacheInv (s.endMutation id) :=
  hs.mono rfl rfl rfl (fun _ _ h => h) (fun _ _ h => continues_of_get? h) fun _ h => .inl h

/-- **A commit is exposed if it meets pages of the current generation**, and no page lacks it otherwise. -/
theorem CacheInv.destroy (hs : CacheInv s) : CacheInv s.destroy := by
  refine ⟨hs.setting, hs.generations, hs.keyed, fun key v h hkey c hlt hle => ?_, hs.served,
    fun id r hr => (hs.started id r hr).trans (Nat.le_succ _), hs.own, hs.fresh⟩
  have hexposed : s.destroy.exposed = (s.version + 1) :: s.exposed := if_pos (@occupied_of_holds s key v h hkey)
  rw [hexposed]
  rcases Nat.lt_or_ge s.version c with hnew | hold
  · have hc : c = s.version + 1 := le_antisymm hle hnew
    rw [hc]
    exact List.mem_cons_self
  · exact List.mem_cons_of_mem _ (hs.current key v h hkey c hlt hold)

theorem cacheGeneration_bump (h : ∀ g, s.setting = some g → 1 ≤ g) : s.cacheGeneration < s.bump.cacheGeneration := by
  unfold State.bump State.cacheGeneration
  cases hg : s.setting with
  | none => simp
  | some g =>
      have := h g hg
      simp only [Option.getD_some, Option.elim_some]
      omega

/-- **After a bump, no page is of the current generation.** -/
theorem CacheInv.bump (hs : CacheInv s) : CacheInv s.bump := by
  have hlt := cacheGeneration_bump hs.setting
  refine ⟨fun g hg => ?_, fun key v h => ?_, fun id r key hr hkey => ?_, fun key v h hkey => ?_, hs.served, hs.started,
    hs.own, hs.fresh⟩
  · cases hold : s.setting with
    | none =>
        have : 2 = g := by simpa [State.bump, hold] using hg
        omega
    | some g' =>
        have : g' + 1 = g := by simpa [State.bump, hold] using hg
        omega
  · exact (hs.generations key v h).trans hlt.le
  · exact (hs.keyed id r key hr hkey).trans hlt.le
  · have := hs.generations key v h
    omega

theorem CacheInv.bumpLocal (hs : CacheInv s) (worker : Nat) : CacheInv (s.bumpLocal worker) :=
  hs.mono rfl rfl rfl
    (fun _ _ => @holds_of_le s (s.bumpLocal worker) _ _ (fun _ _ h => h) get?_of_deleteWhere (fun _ _ h => h))
    (fun _ _ h => continues_of_get? h) fun _ h => .inl h

/-- The rows of the table after a request has moved on. -/
theorem get?_goto {i : Nat} {q : InFlight} (h : (s.goto id r phase).requests.get? i = some q) :
    q = { r with phase } ∨ s.requests.get? i = some q := by
  rw [State.goto, KeyedTable.get?_put] at h
  split at h
  · exact .inl (Option.some.inj h).symm
  · exact .inr h

/-- A request moves on without a new key and without a page. -/
theorem CacheInv.goto (hs : CacheInv s) (hr : Continues s { r with phase }) (hpage : phase.rendered? = none) :
    CacheInv (s.goto id r phase) := by
  refine hs.mono rfl rfl rfl (fun key v h => ?_) (fun i q hq => ?_) fun x hx => .inl hx
  · rcases holds_goto h with hold | rfl
    · exact hold
    · cases hpage
  · rcases get?_goto hq with rfl | hold
    · exact hr
    · exact continues_of_get? hold

/-- A request is answered with a page that is not older. -/
theorem CacheInv.respond (hs : CacheInv s) (h : r.started ≤ rendered) : CacheInv (s.respond id r rendered) := by
  refine hs.mono rfl rfl rfl
    (fun _ _ => @holds_of_le s (s.respond id r rendered) _ _ (fun _ _ h => h) (fun _ _ h => h) get?_of_deleteWhere)
    (fun i q hq => continues_of_get? (get?_of_deleteWhere i q hq)) fun x hx => ?_
  rcases List.mem_cons.mp hx with rfl | hold
  · exact .inr h
  · exact .inl hold

/-- **A page that is stored was being rendered for its key.** -/
theorem CacheInv.cacheSet (hs : CacheInv s) (h : s.Holds key rendered) (redis : Bool) (worker : Nat) :
    CacheInv (s.cacheSet redis worker key rendered) := by
  have hholds : ∀ key' v, (s.cacheSet redis worker key rendered).Holds key' v → s.Holds key' v := by
    intro key' v h'
    obtain hold | ⟨rfl, rfl⟩ := holds_cacheSet h'
    · exact hold
    · exact h
  cases redis <;>
    exact hs.mono rfl rfl rfl hholds (fun _ _ h => continues_of_get? h) fun _ h => .inl h

/-- **A rendering that begins shows every commit.** -/
theorem CacheInv.render (hs : CacheInv s) (hr : s.requests.get? id = some r) {key? : Option Key}
    (hkey : r.phase.key? = key?) : CacheInv (s.goto id r (.rendering key? s.version)) := by
  have hstarted : r.started ≤ s.version := hs.started id r hr
  constructor
  case setting => exact hs.setting
  case generations =>
    intro key v h
    rcases holds_goto h with hold | hnew
    · exact hs.generations key v hold
    · obtain ⟨rfl, -⟩ := RequestPhase.rendering.inj hnew
      exact hs.keyed id r key hr hkey
  case keyed =>
    intro i q key hq hkeyq
    rcases get?_goto hq with rfl | hold
    · exact hs.keyed id r key hr (hkey.trans hkeyq)
    · exact hs.keyed i q key hold hkeyq
  case current =>
    intro key v h hcurrent c hlt hle
    rcases holds_goto h with hold | hnew
    · exact hs.current key v hold hcurrent c hlt hle
    · obtain ⟨-, rfl⟩ := RequestPhase.rendering.inj hnew
      exact absurd hlt (not_lt.mpr hle)
  case served =>
    intro i q key hq hkeyq key' v h heq
    have hq' : ∃ i' q', s.requests.get? i' = some q' ∧ q'.started = q.started ∧ q'.phase.key? = some key := by
      rcases get?_goto hq with rfl | hold
      · exact ⟨id, r, hr, rfl, hkey.trans hkeyq⟩
      · exact ⟨i, q, hold, rfl, hkeyq⟩
    obtain ⟨i', q', hget, hsame, hkey'⟩ := hq'
    rw [← hsame]
    rcases holds_goto h with hold | hnew
    · exact hs.served i' q' key hget hkey' key' v hold heq
    · obtain ⟨-, rfl⟩ := RequestPhase.rendering.inj hnew
      exact hs.started i' q' hget
  case started =>
    intro i q hq
    rcases get?_goto hq with rfl | hold
    · exact hstarted
    · exact hs.started i q hold
  case own =>
    intro i q v hq hv
    rcases get?_goto hq with rfl | hold
    · obtain rfl := Option.some.inj hv
      exact hstarted
    · exact hs.own i q v hold hv
  case fresh => exact hs.fresh

/-- **What a request started after, and is not exposed, its generation shows.** -/
theorem CacheInv.reads (hs : CacheInv s) (hr : s.requests.get? id = some r)
    (hexposed : ∀ c ∈ s.exposed, r.started < c) (config : CacheConfig) (now : Nat) :
    CacheInv (readGeneration config s id r true now) := by
  have hgeneration : (readGeneration config s id r true now).cacheGeneration = s.cacheGeneration := by
    unfold readGeneration State.cacheGeneration
    cases s.setting <;> rfl
  have hholds : ∀ key v, (readGeneration config s id r true now).Holds key v → s.Holds key v := by
    intro key v h
    rcases @holds_goto s key v id r (.keyed (config.key r.request s.cacheGeneration now)) h with hold | hnew
    · exact hold
    · cases hnew
  constructor
  case setting =>
    intro g hg
    cases hold : s.setting with
    | none =>
        have : 1 = g := by simpa [readGeneration, hold] using hg
        omega
    | some g' =>
        have : g' = g := by simpa [readGeneration, hold] using hg
        exact this ▸ hs.setting g' hold
  case generations =>
    intro key v h
    rw [hgeneration]
    exact hs.generations key v (hholds key v h)
  case keyed =>
    intro i q key hq hkeyq
    rw [hgeneration]
    rcases get?_goto hq with rfl | hold
    · obtain rfl := Option.some.inj hkeyq
      exact le_rfl
    · exact hs.keyed i q key hold hkeyq
  case current =>
    intro key v h hcurrent
    rw [hgeneration] at hcurrent
    exact hs.current key v (hholds key v h) hcurrent
  case served =>
    intro i q key hq hkeyq key' v h heq
    rcases get?_goto hq with rfl | hold
    · -- A page of the current generation that lacked the last commit before the request would make it exposed.
      obtain rfl := Option.some.inj hkeyq
      by_contra hlt
      have := hs.current key' v (hholds key' v h) heq r.started (not_le.mp hlt) (hs.started id r hr)
      exact lt_irrefl _ (hexposed _ this)
    · exact hs.served i q key hold hkeyq key' v (hholds key' v h) heq
  case started =>
    intro i q hq
    rcases get?_goto hq with rfl | hold
    · exact hs.started id r hr
    · exact hs.started i q hold
  case own =>
    intro i q v hq hv
    rcases get?_goto hq with rfl | hold
    · cases hv
    · exact hs.own i q v hold hv
  case fresh => exact hs.fresh

end

/-! ## Runs -/

/-- **When a request reads its generation, the database answers, and no commit that the request started after is
    exposed.** -/
def Settled (s : State) : Label → Prop
  | .readGeneration id database _ =>
      database = true ∧ ∀ r ∈ s.requests.get? id, ∀ c ∈ s.exposed, r.started < c
  | _ => True

instance : ∀ s l, Decidable (Settled s l)
  | _, .readGeneration _ _ _ => inferInstanceAs (Decidable (_ ∧ _))
  | _, .arrive _ _ _ | _, .lookup _ _ | _, .render _ | _, .finish _ _ _ | _, .forgetShared _ | _, .forgetLocal _ _
  | _, .begin _ _ _ | _, .commit _ | _, .clearLocal _ | _, .bump _ _ | _, .leave _ => .isTrue trivial

/-- **Each step keeps the invariant.** -/
theorem CacheInv.step {config : CacheConfig} {s s' : State} {l : Label} (hs : CacheInv s) (hok : Settled s l)
    (h : step config s l = some s') : CacheInv s' := by
  cases l with
  | arrive id worker request =>
      simp only [Web.step] at h
      split at h
      · cases h
      · obtain rfl := Option.some.inj h
        have hphase : (if config.skips request then RequestPhase.direct else .arrived).key? = none ∧
            (if config.skips request then RequestPhase.direct else .arrived).rendered? = none := by
          split <;> exact ⟨rfl, rfl⟩
        exact hs.goto (.inl ⟨rfl, hphase⟩) hphase.2
  | readGeneration id database now =>
      obtain ⟨r, hr, h⟩ := Option.bind_eq_some_iff.mp h
      split at h
      · obtain rfl := Option.some.inj h
        obtain ⟨rfl, hexposed⟩ := hok
        exact hs.reads hr (hexposed r hr) config now
      · cases h
  | lookup id redis =>
      obtain ⟨r, hr, h⟩ := Option.bind_eq_some_iff.mp h
      split at h
      · next key hphase =>
          split at h
          · next rendered hget =>
              obtain rfl := Option.some.inj h
              exact hs.respond (hs.served id r key hr (by rw [hphase]; rfl) key rendered (holds_of_cacheGet hget) rfl)
          · obtain rfl := Option.some.inj h
            refine hs.goto (.inr ⟨id, r, hr, rfl, fun k hk => ?_, fun _ hv => by cases hv⟩) rfl
            rw [hphase]
            exact hk
      · cases h
  | render id =>
      obtain ⟨r, hr, h⟩ := Option.bind_eq_some_iff.mp h
      split at h
      · next hphase =>
          obtain rfl := Option.some.inj h
          exact hs.render hr (by rw [hphase]; rfl)
      · next hphase =>
          obtain rfl := Option.some.inj h
          exact hs.render hr (by rw [hphase]; rfl)
      · cases h
  | finish id redis cacheable =>
      obtain ⟨r, hr, h⟩ := Option.bind_eq_some_iff.mp h
      split at h
      · next key rendered hphase =>
          obtain rfl := Option.some.inj h
          have hpage : r.started ≤ rendered := hs.own id r rendered hr (by rw [hphase]; rfl)
          cases cacheable with
          | true => exact (hs.cacheSet (.inr (.inr ⟨id, r, hr, hphase⟩)) redis r.worker).respond hpage
          | false => exact hs.respond hpage
      · next rendered hphase =>
          obtain rfl := Option.some.inj h
          exact hs.respond (hs.own id r rendered hr (by rw [hphase]; rfl))
      · cases h
  | forgetShared key =>
      obtain rfl := Option.some.inj h
      exact hs.mono rfl rfl rfl
        (fun _ _ => holds_of_le get?_of_deleteWhere (fun _ _ h => h) (fun _ _ h => h))
        (fun _ _ h => continues_of_get? h) fun _ h => .inl h
  | forgetLocal worker key =>
      obtain rfl := Option.some.inj h
      exact hs.mono rfl rfl rfl
        (fun _ _ => holds_of_le (fun _ _ h => h) get?_of_deleteWhere (fun _ _ h => h))
        (fun _ _ h => continues_of_get? h) fun _ h => .inl h
  | begin id worker kind =>
      simp only [Web.step] at h
      split at h
      · cases h
      · obtain rfl := Option.some.inj h
        exact hs.gotoMutation id _ _
  | commit id =>
      obtain ⟨m, -, h⟩ := Option.bind_eq_some_iff.mp h
      unfold commitMutation at h
      split at h
      · exact Option.some.inj h ▸ hs.destroy.endMutation id
      · exact Option.some.inj h ▸ hs.destroy.gotoMutation id m _
      · exact Option.some.inj h ▸ hs.destroy.gotoMutation id m _
      · exact Option.some.inj h ▸ hs.gotoMutation id m _
      · exact Option.some.inj h ▸ hs.gotoMutation id m _
      · cases h
  | clearLocal id =>
      obtain ⟨m, -, h⟩ := Option.bind_eq_some_iff.mp h
      split at h
      · exact Option.some.inj h ▸ (hs.bumpLocal m.worker).gotoMutation id m _
      · cases h
  | bump id database =>
      obtain ⟨m, -, h⟩ := Option.bind_eq_some_iff.mp h
      split at h
      · obtain rfl := Option.some.inj h
        have hbump : CacheInv (if database then s.bump else s) := by
          split
          · exact hs.bump
          · exact hs
        unfold afterBump
        split
        · exact hbump.gotoMutation id m _
        · exact hbump.endMutation id
      · cases h
  | leave id =>
      obtain ⟨m, -, h⟩ := Option.bind_eq_some_iff.mp h
      exact Option.some.inj h ▸ hs.endMutation id

theorem cacheInv_of_reachable {config : CacheConfig} {s : State} (h : (pageCache config).Reachable Settled s) :
    CacheInv s :=
  h.invariant (fun _ hinit => hinit ▸ CacheInv.init) fun _ _ _ _ hs hok hstep => hs.step hok hstep

/-- **Where no request reads a generation past an exposed commit, no page is older than the request it answers.** -/
theorem pages_current (config : CacheConfig) {s : State} (h : (pageCache config).Reachable Settled s)
    {response : Response} (hresponse : response ∈ s.responses) : response.started ≤ response.rendered :=
  (cacheInv_of_reachable h).fresh response hresponse

/-! ## Runs on one page -/

/-- A front page, for one user. -/
def indexRequest : PageRequest where
  endpointName := "index"
  fullPath := "/?"
  user := "admin"
  method := "GET"
  nocache := none

/-- A request for it that reads its generation and looks its page up. -/
def looksUp (id now : Nat) : List Label := [.arrive id 0 indexRequest, .readGeneration id true now, .lookup id true]

/-- A request for it that renders the page and stores it in Redis. -/
def storesPage (id now : Nat) : List Label := looksUp id now ++ [.render id, .finish id true true]

def plainConfig : CacheConfig where
  pageCacheEnabled := true
  pageCacheTTL := 6
  sha256 := id

/-- A purge between whose bump and commit no page is rendered, then a hide whose bump the next request waits for. -/
def settledRun : List Label :=
  storesPage 1 60 ++ [.begin 10 5 .purge, .clearLocal 10, .bump 10 true, .commit 10] ++
  storesPage 2 61 ++ [.begin 11 0 .hide, .commit 11, .clearLocal 11, .bump 11 true] ++ storesPage 3 62 ++ looksUp 4 63

theorem pages_current_after_purge_and_hide :
    ∃ s, (pageCache plainConfig).exec Settled {} settledRun = some s ∧
      s.responses = [⟨2, 2⟩, ⟨2, 2⟩, ⟨1, 1⟩, ⟨0, 0⟩] ∧ ∀ response ∈ s.responses, response.started ≤ response.rendered := by
  have hrun : ((pageCache plainConfig).exec Settled {} settledRun).map State.responses =
      some [⟨2, 2⟩, ⟨2, 2⟩, ⟨1, 1⟩, ⟨0, 0⟩] := by decide +kernel
  obtain ⟨s, hs, hresponses⟩ := Option.map_eq_some_iff.mp hrun
  exact ⟨s, hs, hresponses, fun _ => pages_current plainConfig (.exec (.init rfl) hs)⟩

/-- A page is rendered and stored between a purge's bump and its commit; or it was stored before a hide, and is looked up
    between the hide's commit and its bump. -/
def purgeRun : List Label :=
  [.begin 10 5 .purge, .clearLocal 10, .bump 10 true] ++ storesPage 1 60 ++ [.commit 10] ++ looksUp 2 61

def hideRun : List Label := storesPage 1 60 ++ [.begin 11 0 .hide, .commit 11] ++ looksUp 2 61

/-- **A request that starts after the commit of a purge, or of a hide, gets a page from before it.** -/
theorem stale_page_after_purge_or_hide :
    (∃ s, (pageCache plainConfig).Reachable System.AnyStep s ∧
      ∃ response ∈ s.responses, response.rendered < response.started) ∧
    ((pageCache plainConfig).exec System.AnyStep {} purgeRun).map State.responses = some [⟨1, 0⟩, ⟨0, 0⟩] ∧
    ((pageCache plainConfig).exec System.AnyStep {} hideRun).map State.responses = some [⟨1, 0⟩, ⟨0, 0⟩] := by
  have hpurge : ((pageCache plainConfig).exec System.AnyStep {} purgeRun).map State.responses =
      some [⟨1, 0⟩, ⟨0, 0⟩] := by decide +kernel
  obtain ⟨s, hs, hresponses⟩ := Option.map_eq_some_iff.mp hpurge
  refine ⟨⟨s, .exec (.init rfl) hs, ⟨1, 0⟩, ?_, by decide⟩, hpurge, by decide +kernel⟩
  rw [hresponses]
  exact List.mem_cons_self

end VirtInfra.Web
