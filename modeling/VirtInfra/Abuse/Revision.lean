import VirtInfra.Abuse.Mirror

/-!
# `Revision` — what a policy revision names

The thresholds of the abuse policy are rows of `admin_settings`; the revision is a row beside them. The policy form
writes both and resets every streak, a configuration restore writes the thresholds alone, and a push reads the
thresholds, the revision and the RAM thresholds one after the other. A revision therefore names one set of thresholds
in the runs whose restores keep the thresholds and whose pushes read them unchanged; it grows in every run.

What `int` and `float` make of a setting's text is a parameter.
-/

namespace VirtInfra.Abuse

open Lib Python Consumption Agent

/-! ## The settings -/

/-- The thresholds among `SAFE_SETTING_KEYS`. -/
inductive SettingKey
  | networkEnabled | networkPps | networkRequiredSeconds
  | networkMbpsEnabled | networkAvgMbps | networkMbpsRequiredSeconds
  | cpuEnabled | cpuFullPercent | cpuRequiredSeconds
  | ramEnabled | ramRssPercent | ramGuestUsedPercent | ramLowUsablePercent | ramRequiredSeconds
  | diskEnabled | diskReadBps | diskWriteBps | diskBps | diskIops | diskRequiredSeconds
  deriving DecidableEq, Repr

/-- The key in `admin_settings`. -/
def SettingKey.name : SettingKey → String
  | networkEnabled => "abuse_network_enabled"
  | networkPps => "abuse_network_pps"
  | networkRequiredSeconds => "abuse_network_required_seconds"
  | networkMbpsEnabled => "abuse_network_mbps_enabled"
  | networkAvgMbps => "abuse_network_avg_mbps"
  | networkMbpsRequiredSeconds => "abuse_network_mbps_required_seconds"
  | cpuEnabled => "abuse_cpu_enabled"
  | cpuFullPercent => "abuse_cpu_full_percent"
  | cpuRequiredSeconds => "abuse_cpu_required_seconds"
  | ramEnabled => "abuse_ram_enabled"
  | ramRssPercent => "abuse_ram_rss_percent"
  | ramGuestUsedPercent => "abuse_ram_guest_used_percent"
  | ramLowUsablePercent => "abuse_ram_low_usable_percent"
  | ramRequiredSeconds => "abuse_ram_required_seconds"
  | diskEnabled => "abuse_disk_enabled"
  | diskReadBps => "abuse_disk_read_bps"
  | diskWriteBps => "abuse_disk_write_bps"
  | diskBps => "abuse_disk_bps"
  | diskIops => "abuse_disk_iops"
  | diskRequiredSeconds => "abuse_disk_required_seconds"

/-- `ABUSE_SETTING_DEFAULTS`. -/
def SettingKey.default : SettingKey → String
  | networkEnabled | networkMbpsEnabled | cpuEnabled | diskEnabled => "1"
  | networkPps => "200000"
  | networkRequiredSeconds => "270"
  | networkAvgMbps => "800"
  | networkMbpsRequiredSeconds => "300"
  | cpuFullPercent => "90"
  | cpuRequiredSeconds => "1800"
  | ramEnabled | diskReadBps | diskWriteBps => "0"
  | ramRssPercent | ramGuestUsedPercent => "95"
  | ramLowUsablePercent => "5"
  | ramRequiredSeconds => "600"
  | diskBps => "209715200"
  | diskIops => "5000"
  | diskRequiredSeconds => "900"

/-- The rows of `admin_settings` with these keys. -/
abbrev Settings := SettingKey → Option String

/-- A setting, or its default when there is no row. -/
def Settings.value (settings : Settings) (key : SettingKey) : String := (settings key).getD key.default

/-- `_setting_bool`. -/
def settingBool (value : String) : Bool := ["1", "true", "yes", "on", "enabled"].contains (lower (strip value))

/-- What Python's `int` and `float` give for a text; `none` where they raise. -/
structure Numerals where
  int : String → Option Int
  float : String → Option ℚ

/-- `safe_float` of a text. -/
def Numerals.safeFloat (numerals : Numerals) (text : String) (default : ℚ) : ℚ := (numerals.float text).getD default

/-- **`get_abuse_settings`**, from what its three reads return: the settings, the revision, and the settings again for
    the RAM keys. -/
def getAbuseSettings (numerals : Numerals) (settings : Settings) (revision : Int) (ramSettings : Settings) : Policy :=
  let float := fun key default => numerals.safeFloat (settings.value key) default
  let seconds := fun (settings : Settings) key lo hi default =>
    clamp lo hi (safeInt (numerals.int (settings.value key)) default)
  let percent := fun key default => max 0 (min 100 (numerals.safeFloat (ramSettings.value key) default))
  { networkEnabled := settingBool (settings.value .networkEnabled)
    networkPps := max 1000 (min 100000000 (float .networkPps 200000))
    lower := le_max_left _ _
    upper := max_le (by norm_num) (min_le_left _ _)
    networkRequiredSeconds := seconds settings .networkRequiredSeconds 15 300 270
    networkMbpsEnabled := settingBool (settings.value .networkMbpsEnabled)
    networkAvgMbps := max 0 (min 1000000 (float .networkAvgMbps 800))
    networkMbpsRequiredSeconds := seconds settings .networkMbpsRequiredSeconds 300 86400 300
    cpuEnabled := settingBool (settings.value .cpuEnabled)
    cpuFullPercent := max 1 (min 100 (float .cpuFullPercent 90))
    cpuRequiredSeconds := seconds settings .cpuRequiredSeconds 300 86400 1800
    ramEnabled := settingBool (ramSettings.value .ramEnabled)
    ramRssPercent := percent .ramRssPercent 95
    ramGuestUsedPercent := percent .ramGuestUsedPercent 95
    ramLowUsablePercent := percent .ramLowUsablePercent 5
    ramRequiredSeconds := seconds ramSettings .ramRequiredSeconds 300 86400 600
    diskEnabled := settingBool (settings.value .diskEnabled)
    diskReadBps := max 0 (float .diskReadBps 0)
    diskWriteBps := max 0 (float .diskWriteBps 0)
    diskBps := max 0 (float .diskBps 209715200)
    diskIops := max 0 (float .diskIops 5000)
    diskRequiredSeconds := seconds settings .diskRequiredSeconds 300 86400 900
    revision := max 1 revision }

/-- The policy of settings that are read in one go. -/
def policyOf (numerals : Numerals) (settings : Settings) (revision : Int) : Policy :=
  getAbuseSettings numerals settings revision settings

/-- Two settings with the same thresholds and durations. -/
def SameThresholds (numerals : Numerals) (a b : Settings) : Prop :=
  ∀ revision, policyOf numerals a revision = policyOf numerals b revision

/-- The upserts of a save: the keys of the form, the rest as stored. -/
def Settings.save (settings values : Settings) : Settings := fun key => (values key).or (settings key)

/-- The `settings` section of `restore_configuration_backup`: the keys of the backup, the last row of each, and no
    others. -/
def restoreSettings (items : List (String × String)) : Settings := fun key =>
  ((items.filter fun item => item.1 = key.name).getLast?).map Prod.snd

/-! ## Rows and their judges -/

/-- The policies that judged the samples of a streak, beside the count of `_v4810_next_streak`. -/
def nextJudges (policy : Policy) (old : List Policy) (hit policySame contiguous advanceCycle : Bool) : List Policy :=
  if !hit then []
  else if !advanceCycle then policy :: old
  else if policySame && contiguous then policy :: old
  else [policy]

theorem nextStreak_le_length {oldCycles : Int} {policy : Policy} {old : List Policy} (h : oldCycles ≤ old.length)
    (hit policySame contiguous advanceCycle : Bool) :
    nextStreak (max 0 oldCycles) hit policySame contiguous advanceCycle ≤
      (nextJudges policy old hit policySame contiguous advanceCycle).length := by
  unfold nextStreak nextJudges
  split
  · simp
  · split
    · rw [List.length_cons]
      omega
    · split
      · rw [List.length_cons]
        omega
      · simp

/-- A row of `vm_abuse_state` with the judges of its streaks. -/
structure JudgedState extends AbuseState where
  judges : Rule → List Policy
  counted : ∀ rule, streakCycles rule ≤ (judges rule).length

/-- The row a push writes, with the judges of its streaks. -/
def judge (policy : Policy) (push : Push) (vm : String) (stored : Option JudgedState) (row : VmCurrent) : JudgedState :=
  let old := stored.map JudgedState.toAbuseState
  let state := old.getD AbuseState.blank
  { toAbuseState := evaluate policy push vm old row
    judges := fun rule =>
      nextJudges policy ((stored.map fun state => state.judges rule).getD []) (!(ruleHit policy row rule).isEmpty)
        (state.policySame policy) (state.lastEvalBucket ≠ 0 && bucketFor push.time - state.lastEvalBucket = 300)
        (state.lastEvalBucket ≠ bucketFor push.time)
    counted := by
      intro rule
      apply nextStreak_le_length
      cases stored with
      | none => exact le_refl (0 : Int)
      | some found => exact found.counted rule }

/-- `_v4810_reset_current_state_for_policy` on one row. -/
def resetJudged (revision now : Int) (state : JudgedState) : JudgedState :=
  { toAbuseState := resetRow revision now state.toAbuseState
    judges := fun _ => []
    counted := fun _ => le_refl (0 : Int) }

/-! ## The system -/

/-- How far the transaction of a push is in its reads; each statement sees what is committed when it runs. -/
inductive Phase
  | settings (settings : Settings)
  | revision (settings : Settings) (revision : Int)
  | policy (policy : Policy)
  | states (policy : Policy) (before : KeyedTable VmKey JudgedState)

structure Reading where
  push : Push
  phase : Phase

/-- The tables, the transactions of the pushes (one a node) and of the policy saves, and the policies that pushes have
    been evaluated under. -/
structure PolicyStore where
  settings : Settings
  revision : Int
  versions : List Int
  abuse : KeyedTable VmKey JudgedState
  pushes : String → Option Reading
  saves : Nat → Option Int
  evaluated : List (Push × Policy)

inductive PolicyLabel
  | start (push : Push)
  | readRevision (node : String)
  | readRam (node : String)
  | readStates (node : String)
  | commit (node : String) (rows : List (String × VmCurrent))
  | abort (node : String)
  | saveRead (id : Nat)
  | saveCommit (id : Nat) (values : Settings) (now : Int)
  | saveAbort (id : Nat)
  | restore (items : List (String × String))

/-- The abuse rows after a push: those of VMs that are gone are deleted, those of the evaluated rows written. -/
def writeJudged (policy : Policy) (before : KeyedTable VmKey JudgedState) (push : Push)
    (rows : List (String × VmCurrent)) (abuse : KeyedTable VmKey JudgedState) : KeyedTable VmKey JudgedState :=
  let kept := if push.inventoryComplete then
      abuse.deleteRows fun key row => key.1 = push.node && row.lastSeen < push.time
    else abuse
  rows.foldl
    (fun t row =>
      t.upsert (push.node, row.1) (judge policy push row.1 (before.get? (push.node, row.1)) row.2)
        (KeyedTable.guarded fun state => state.lastSeen))
    kept

/-- `_v4810_save_policy` from the upserts on. `revision` is the primary key of `abuse_policy_versions`: a save whose
    revision is taken fails and is rolled back. -/
def commitSave (read : Int) (values : Settings) (now : Int) (s : PolicyStore) : PolicyStore :=
  let revision := max 1 (read + 1)
  if s.versions.contains revision then s
  else
    { s with
      settings := s.settings.save values
      revision
      versions := revision :: s.versions
      abuse := s.abuse.update fun _ state => resetJudged revision now state }

def PolicyStore.setPhase (s : PolicyStore) (node : String) (push : Push) (phase : Phase) : PolicyStore :=
  { s with pushes := Function.update s.pushes node (some { push, phase }) }

def PolicyStore.step (numerals : Numerals) (s : PolicyStore) : PolicyLabel → Option PolicyStore
  -- the advisory lock of the node lets one push of it in
  | .start push =>
      if (s.pushes push.node).isSome then none else some (s.setPhase push.node push (.settings s.settings))
  | .readRevision node =>
      match s.pushes node with
      | some ⟨push, .settings settings⟩ => some (s.setPhase node push (.revision settings s.revision))
      | _ => none
  | .readRam node =>
      match s.pushes node with
      | some ⟨push, .revision settings revision⟩ =>
          some (s.setPhase node push (.policy (getAbuseSettings numerals settings revision s.settings)))
      | _ => none
  | .readStates node =>
      match s.pushes node with
      | some ⟨push, .policy policy⟩ => some (s.setPhase node push (.states policy s.abuse))
      | _ => none
  -- the rows are those of `vm_current_fast` that carry the push's time
  | .commit node rows =>
      match s.pushes node with
      | some ⟨push, .states policy before⟩ =>
          some { s with
            abuse := if push.vms.isSome then writeJudged policy before push rows s.abuse else s.abuse
            pushes := Function.update s.pushes node none
            evaluated := (push, policy) :: s.evaluated }
      | _ => none
  | .abort node => some { s with pushes := Function.update s.pushes node none }
  | .saveRead id => some { s with saves := Function.update s.saves id (some s.revision) }
  | .saveCommit id values now =>
      (s.saves id).map fun read => { commitSave read values now s with saves := Function.update s.saves id none }
  | .saveAbort id => some { s with saves := Function.update s.saves id none }
  | .restore items => some { s with settings := restoreSettings items }

/-- The tables a migrated installation starts with. -/
def PolicyStore.init (settings : Settings) (revision : Int) : PolicyStore :=
  { settings, revision, versions := [], abuse := KeyedTable.empty, pushes := fun _ => none, saves := fun _ => none
    evaluated := [] }

def policySystem (numerals : Numerals) : System PolicyStore PolicyLabel where
  init s := ∃ settings revision, 1 ≤ revision ∧ s = PolicyStore.init settings revision
  step := PolicyStore.step numerals

variable {numerals : Numerals} {s s' : PolicyStore}

/-! ## The stored revision -/

/-- Every revision past the first has its row in `abuse_policy_versions`, and an open save has read a revision that was
    stored. -/
structure Numbered (first : Int) (s : PolicyStore) : Prop where
  positive : 1 ≤ first
  past : first ≤ s.revision
  taken : ∀ revision, first < revision → revision ≤ s.revision → revision ∈ s.versions
  read : ∀ id revision, s.saves id = some revision → first ≤ revision ∧ revision ≤ s.revision

theorem numbered_init {settings : Settings} {revision : Int} (h : 1 ≤ revision) :
    Numbered revision (PolicyStore.init settings revision) where
  positive := h
  past := le_refl revision
  taken r hlt hle := absurd hle (not_le.mpr hlt)
  read id r hread := by cases hread

/-- **A save numbers the next revision or is rolled back.** -/
theorem commitSave_cases {first read : Int} (h : Numbered first s) (hfirst : first ≤ read) (hread : read ≤ s.revision)
    (values : Settings) (now : Int) :
    commitSave read values now s = s ∨
    commitSave read values now s =
      { s with
        settings := s.settings.save values
        revision := s.revision + 1
        versions := (s.revision + 1) :: s.versions
        abuse := s.abuse.update fun _ state => resetJudged (s.revision + 1) now state } := by
  unfold commitSave
  dsimp only
  rw [max_eq_right (by have := h.positive; omega)]
  by_cases hstale : read < s.revision
  · -- another save committed since: its revision is taken
    left
    rw [if_pos (List.contains_iff_mem.mpr (h.taken (read + 1) (by omega) (by omega)))]
  · obtain rfl : read = s.revision := by omega
    split
    · exact .inl rfl
    · exact .inr rfl

/-- The parts of a step that the revision depends on. -/
theorem Numbered.step {first : Int} {label : PolicyLabel} (h : Numbered first s)
    (hstep : s.step numerals label = some s') : Numbered first s' ∧ s.revision ≤ s'.revision := by
  have hsaves : ∀ (id : Nat) (read : Option Int), (∀ r, read = some r → first ≤ r ∧ r ≤ s.revision) →
      ∀ id' r, Function.update s.saves id read id' = some r → first ≤ r ∧ r ≤ s.revision := by
    intro id read hread id' r hr
    by_cases hid : id' = id
    · subst hid
      rw [Function.update_self] at hr
      exact hread r hr
    · rw [Function.update_of_ne hid] at hr
      exact h.read id' r hr
  cases label with
  | start push =>
      dsimp only [PolicyStore.step] at hstep
      split at hstep <;> cases hstep
      exact ⟨⟨h.positive, h.past, h.taken, h.read⟩, le_refl _⟩
  | readRevision node | readRam node | readStates node | commit node rows =>
      dsimp only [PolicyStore.step] at hstep
      split at hstep <;> cases hstep
      exact ⟨⟨h.positive, h.past, h.taken, h.read⟩, le_refl _⟩
  | abort node | restore items =>
      cases hstep
      exact ⟨⟨h.positive, h.past, h.taken, h.read⟩, le_refl _⟩
  | saveRead id =>
      cases hstep
      refine ⟨⟨h.positive, h.past, h.taken, hsaves id _ ?_⟩, le_refl _⟩
      rintro r ⟨rfl⟩
      exact ⟨h.past, le_refl _⟩
  | saveAbort id =>
      cases hstep
      exact ⟨⟨h.positive, h.past, h.taken, hsaves id none (by rintro r ⟨⟩)⟩, le_refl _⟩
  | saveCommit id values now =>
      obtain ⟨read, hread, rfl⟩ := Option.map_eq_some_iff.mp hstep
      obtain ⟨hfirst, hle⟩ := h.read id read hread
      have hclosed := hsaves id none (by rintro r ⟨⟩)
      rcases commitSave_cases h hfirst hle values now with heq | heq
      · rw [heq]
        exact ⟨⟨h.positive, h.past, h.taken, hclosed⟩, le_refl _⟩
      · rw [heq]
        refine ⟨⟨h.positive, ?_, ?_, ?_⟩, ?_⟩ <;> dsimp only
        · have := h.past
          omega
        · intro r hlt hr
          rcases eq_or_ne r (s.revision + 1) with rfl | hne
          · exact List.mem_cons_self
          · exact List.mem_cons_of_mem _ (h.taken r hlt (by omega))
        · intro id' r hr
          obtain ⟨hlow, hhigh⟩ := hclosed id' r hr
          exact ⟨hlow, by omega⟩
        · omega

theorem numbered_of_reachable {ok : PolicyStore → PolicyLabel → Prop} (h : (policySystem numerals).Reachable ok s) :
    ∃ first, Numbered first s := by
  apply h.invariant (I := fun s => ∃ first, Numbered first s)
  · rintro s ⟨settings, revision, hrevision, rfl⟩
    exact ⟨revision, numbered_init hrevision⟩
  · rintro s label s' - ⟨first, hs⟩ - hstep
    exact ⟨first, (hs.step hstep).1⟩

/-- **The stored revision never decreases.** -/
theorem revision_mono {first : Int} {labels : List PolicyLabel} (h : Numbered first s)
    (hrun : (policySystem numerals).exec System.AnyStep s labels = some s') : s.revision ≤ s'.revision := by
  induction labels generalizing s with
  | nil => exact Option.some.inj hrun ▸ le_refl _
  | cons label rest ih =>
      rw [System.exec, if_pos trivial] at hrun
      obtain ⟨mid, hmid, hrest⟩ := Option.bind_eq_some_iff.mp hrun
      obtain ⟨hnext, hle⟩ := h.step hmid
      exact le_trans hle (ih hnext hrest)

/-! ## What a revision names -/

/-- The policy a push in this phase is going to be evaluated under, once its revision is read. -/
def Phase.known (numerals : Numerals) : Phase → Option Policy
  | .settings _ => none
  | .revision read stored => some (policyOf numerals read stored)
  | .policy assembled => some assembled
  | .states assembled _ => some assembled

/-- A push has been evaluated under the policy, or is going to be. -/
def Known (numerals : Numerals) (s : PolicyStore) (policy : Policy) : Prop :=
  (∃ push, (push, policy) ∈ s.evaluated) ∨
  ∃ node reading, s.pushes node = some reading ∧ reading.phase.known numerals = some policy

/-- **A step that leaves the revision its thresholds.** -/
def RevisionKept (numerals : Numerals) (s : PolicyStore) : PolicyLabel → Prop
  -- the thresholds a push reads are still stored when it reads the rest of its policy
  | .readRevision node =>
      ∀ push settings, s.pushes node = some ⟨push, .settings settings⟩ → SameThresholds numerals settings s.settings
  | .readRam node =>
      ∀ push settings revision, s.pushes node = some ⟨push, .revision settings revision⟩ →
        SameThresholds numerals settings s.settings
  -- a restore keeps the thresholds, or no push has read a policy under the stored revision yet
  | .restore items =>
      SameThresholds numerals (restoreSettings items) s.settings ∨
      ∀ policy, Known numerals s policy → policy.revision ≠ s.revision
  -- no VM is evaluated again in the five minutes in which it was evaluated under another revision
  | .commit node _ =>
      ∀ push policy before, s.pushes node = some ⟨push, .states policy before⟩ →
        ∀ vm state, before.get? (node, vm) = some state → state.lastEvalBucket = bucketFor push.time →
          state.policySame policy = true
  | _ => True

/-- Every policy a push reads carries a revision that was stored, the stored one names the stored thresholds, and no
    revision names two policies. -/
structure Named (numerals : Numerals) (s : PolicyStore) : Prop where
  bound : ∀ policy, Known numerals s policy → policy.revision ≤ s.revision
  stored : ∀ policy, Known numerals s policy → policy.revision = s.revision →
    policy = policyOf numerals s.settings s.revision
  agree : ∀ p q, Known numerals s p → Known numerals s q → p.revision = q.revision → p = q

theorem policyOf_revision {revision : Int} (h : 1 ≤ revision) (settings : Settings) :
    (policyOf numerals settings revision).revision = revision := max_eq_right h

/-- Reading the RAM keys of settings with the same thresholds gives the policy of either. -/
theorem getAbuseSettings_of_same {a b : Settings} (h : SameThresholds numerals a b) (revision : Int) :
    getAbuseSettings numerals a revision b = policyOf numerals a revision := by
  have heq := h revision
  unfold policyOf getAbuseSettings at heq ⊢
  simp only [Policy.mk.injEq] at heq ⊢
  simp only [heq, and_self]

theorem known_setPhase {node : String} {push : Push} {phase : Phase} {policy : Policy}
    (h : Known numerals (s.setPhase node push phase) policy) :
    Known numerals s policy ∨ phase.known numerals = some policy := by
  rcases h with hdone | ⟨node', reading, hreading, hknown⟩
  · exact .inl (.inl hdone)
  · dsimp only [PolicyStore.setPhase] at hreading
    by_cases hnode : node' = node
    · subst hnode
      rw [Function.update_self] at hreading
      cases hreading
      exact .inr hknown
    · rw [Function.update_of_ne hnode] at hreading
      exact .inl (.inr ⟨node', reading, hreading, hknown⟩)

/-- Closing the transaction of a push makes no policy known. -/
theorem known_close {node : String} {s' : PolicyStore} (hpushes : s'.pushes = Function.update s.pushes node none)
    (hevaluated : ∀ entry ∈ s'.evaluated, Known numerals s entry.2) {policy : Policy} (h : Known numerals s' policy) :
    Known numerals s policy := by
  rcases h with ⟨push, hdone⟩ | ⟨node', reading, hreading, hknown⟩
  · exact hevaluated _ hdone
  · rw [hpushes] at hreading
    by_cases hnode : node' = node
    · subst hnode
      rw [Function.update_self] at hreading
      cases hreading
    · rw [Function.update_of_ne hnode] at hreading
      exact .inr ⟨node', reading, hreading, hknown⟩

/-- A step that makes no policy known and leaves settings and revision alone keeps the names. -/
theorem Named.frame (h : Named numerals s) (hrevision : s'.revision = s.revision) (hsettings : s'.settings = s.settings)
    (hknown : ∀ policy, Known numerals s' policy → Known numerals s policy) : Named numerals s' where
  bound policy hpolicy := hrevision ▸ h.bound policy (hknown policy hpolicy)
  stored policy hpolicy heq := by
    rw [hsettings, hrevision]
    exact h.stored policy (hknown policy hpolicy) (hrevision ▸ heq)
  agree p q hp hq := h.agree p q (hknown p hp) (hknown q hq)

/-- **A push learns the revision while the thresholds it has read are stored.** -/
theorem Named.readRevision (h : Named numerals s) (hpositive : 1 ≤ s.revision) {node : String} {push : Push}
    {settings : Settings} (hsame : SameThresholds numerals settings s.settings) :
    Named numerals (s.setPhase node push (.revision settings s.revision)) := by
  have hname : policyOf numerals settings s.revision = policyOf numerals s.settings s.revision := hsame s.revision
  have hcases : ∀ policy, Known numerals (s.setPhase node push (.revision settings s.revision)) policy →
      Known numerals s policy ∨ policy = policyOf numerals s.settings s.revision := by
    intro policy hpolicy
    rcases known_setPhase hpolicy with hold | hnew
    · exact .inl hold
    · exact .inr ((Option.some.inj hnew).symm.trans hname)
  refine ⟨?_, ?_, ?_⟩
  · intro policy hpolicy
    show policy.revision ≤ s.revision
    rcases hcases policy hpolicy with hold | rfl
    · exact h.bound policy hold
    · exact (policyOf_revision hpositive s.settings).le
  · intro policy hpolicy heq
    show policy = policyOf numerals s.settings s.revision
    rcases hcases policy hpolicy with hold | hnew
    · exact h.stored policy hold heq
    · exact hnew
  · intro p q hp hq heq
    rcases hcases p hp with hp | rfl <;> rcases hcases q hq with hq | rfl
    · exact h.agree p q hp hq heq
    · exact h.stored p hp (heq.trans (policyOf_revision hpositive s.settings))
    · exact (h.stored q hq (heq.symm.trans (policyOf_revision hpositive s.settings))).symm
    · rfl

/-- A restore keeps the names if it keeps the thresholds, or if nothing is known under the stored revision. -/
theorem Named.restore (h : Named numerals s) {settings : Settings}
    (hkept : SameThresholds numerals settings s.settings ∨ ∀ policy, Known numerals s policy →
      policy.revision ≠ s.revision) : Named numerals { s with settings } where
  bound := h.bound
  stored policy hpolicy heq := by
    rcases hkept with hsame | hunused
    · exact (h.stored policy hpolicy heq).trans (hsame s.revision).symm
    · exact absurd heq (hunused policy hpolicy)
  agree := h.agree

/-- A save moves on to a revision that no policy carries. -/
theorem Named.save (h : Named numerals s) {first read : Int} (hnumbered : Numbered first s) (hfirst : first ≤ read)
    (hread : read ≤ s.revision) (values : Settings) (now : Int) : Named numerals (commitSave read values now s) := by
  rcases commitSave_cases hnumbered hfirst hread values now with heq | heq
  · rw [heq]
    exact h
  · rw [heq]
    refine ⟨?_, ?_, h.agree⟩
    · intro policy hpolicy
      have hle : policy.revision ≤ s.revision := h.bound policy hpolicy
      show policy.revision ≤ s.revision + 1
      omega
    · intro policy hpolicy hnew
      have hle : policy.revision ≤ s.revision := h.bound policy hpolicy
      have hnew : policy.revision = s.revision + 1 := hnew
      omega

theorem Named.step {first : Int} {label : PolicyLabel} (h : Named numerals s) (hnumbered : Numbered first s)
    (hok : RevisionKept numerals s label) (hstep : s.step numerals label = some s') : Named numerals s' := by
  have hpositive : 1 ≤ s.revision := le_trans hnumbered.positive hnumbered.past
  cases label with
  | start push =>
      dsimp only [PolicyStore.step] at hstep
      split at hstep <;> cases hstep
      refine h.frame rfl rfl ?_
      intro policy hpolicy
      rcases known_setPhase hpolicy with hold | hnew
      · exact hold
      · cases hnew
  | readRevision node =>
      dsimp only [PolicyStore.step] at hstep
      split at hstep <;> cases hstep
      rename_i push settings hreading
      exact h.readRevision hpositive (hok push settings hreading)
  | readRam node =>
      dsimp only [PolicyStore.step] at hstep
      split at hstep <;> cases hstep
      rename_i push settings revision hreading
      refine h.frame rfl rfl ?_
      intro policy hpolicy
      rw [getAbuseSettings_of_same (hok push settings revision hreading)] at hpolicy
      rcases known_setPhase hpolicy with hold | hnew
      · exact hold
      · exact .inr ⟨node, _, hreading, hnew⟩
  | readStates node =>
      dsimp only [PolicyStore.step] at hstep
      split at hstep <;> cases hstep
      rename_i push assembled hreading
      refine h.frame rfl rfl ?_
      intro policy hpolicy
      rcases known_setPhase hpolicy with hold | hnew
      · exact hold
      · exact .inr ⟨node, _, hreading, hnew⟩
  | commit node rows =>
      dsimp only [PolicyStore.step] at hstep
      split at hstep <;> cases hstep
      rename_i push assembled before hreading
      refine h.frame rfl rfl ?_
      refine fun policy => known_close rfl ?_
      intro entry hentry
      rcases List.mem_cons.mp hentry with rfl | hold
      · exact .inr ⟨node, _, hreading, rfl⟩
      · exact .inl ⟨entry.1, hold⟩
  | abort node =>
      cases hstep
      refine h.frame rfl rfl ?_
      refine fun policy => known_close rfl ?_
      intro entry hentry
      exact .inl ⟨entry.1, hentry⟩
  | saveRead id | saveAbort id =>
      cases hstep
      exact h.frame rfl rfl fun policy hpolicy => hpolicy
  | saveCommit id values now =>
      obtain ⟨read, hread, rfl⟩ := Option.map_eq_some_iff.mp hstep
      obtain ⟨hfirst, hle⟩ := hnumbered.read id read hread
      exact (h.save hnumbered hfirst hle values now).frame rfl rfl fun policy hpolicy => hpolicy
  | restore items =>
      cases hstep
      exact h.restore hok

/-! ## Who judged a streak -/

/-- The samples of each streak of a row were judged under its revision, by policies that pushes were evaluated under. -/
def Judged (s : PolicyStore) (state : JudgedState) : Prop :=
  ∀ rule, ∀ policy ∈ state.judges rule,
    (∃ push, (push, policy) ∈ s.evaluated) ∧ policy.revision = state.policyRevision

/-- Every row stored, and every row a push has read, is judged under its revision. -/
structure Accounted (s : PolicyStore) : Prop where
  named : ∀ node reading, s.pushes node = some reading → reading.push.node = node
  stored : s.abuse.All (Judged s)
  seen : ∀ node push policy before, s.pushes node = some ⟨push, .states policy before⟩ → before.All (Judged s)

theorem Judged.mono {state : JudgedState} (h : Judged s state) (hevaluated : ∀ entry ∈ s.evaluated,
    entry ∈ s'.evaluated) : Judged s' state := by
  intro rule policy hpolicy
  obtain ⟨⟨push, hpush⟩, hrevision⟩ := h rule policy hpolicy
  exact ⟨⟨push, hevaluated _ hpush⟩, hrevision⟩

theorem mem_nextJudges {policy p : Policy} {old : List Policy} {hit policySame contiguous advanceCycle : Bool}
    (h : p ∈ nextJudges policy old hit policySame contiguous advanceCycle) :
    p = policy ∨ p ∈ old ∧ (advanceCycle = false ∨ policySame = true) := by
  unfold nextJudges at h
  split at h
  · cases h
  · split at h
    · rename_i hadvance
      rcases List.mem_cons.mp h with rfl | hold
      · exact .inl rfl
      · exact .inr ⟨hold, .inl (by simpa using hadvance)⟩
    · split at h
      · rename_i hsame
        rcases List.mem_cons.mp h with rfl | hold
        · exact .inl rfl
        · exact .inr ⟨hold, .inr (Bool.and_eq_true_iff.mp hsame).1⟩
      · exact .inl (List.mem_singleton.mp h)

theorem policySame_revision {policy : Policy} {state : AbuseState} (h : state.policySame policy = true) :
    state.policyRevision = policy.revision := by
  unfold AbuseState.policySame at h
  simpa using (Bool.and_eq_true_iff.mp h).1

/-- **The row a push writes is judged under its revision**, if a streak carried within five minutes is under the
    policy. -/
theorem judged_judge {policy : Policy} {push : Push} {vm : String} {stored : Option JudgedState} (row : VmCurrent)
    (hpolicy : (push, policy) ∈ s.evaluated) (hstored : ∀ state, stored = some state → Judged s state)
    (hcycle : ∀ state, stored = some state → state.lastEvalBucket = bucketFor push.time →
      state.policySame policy = true) : Judged s (judge policy push vm stored row) := by
  intro rule p hp
  show _ ∧ p.revision = policy.revision
  rcases mem_nextJudges hp with rfl | ⟨hold, hcarried⟩
  · exact ⟨⟨push, hpolicy⟩, rfl⟩
  · cases stored with
    | none => cases hold
    | some state =>
        obtain ⟨hevaluated, hrevision⟩ := hstored state rfl rule p hold
        refine ⟨hevaluated, hrevision.trans (policySame_revision ?_)⟩
        rcases hcarried with hbucket | hsame
        · exact hcycle state rfl (by simpa using hbucket)
        · exact hsame

theorem accounted_writeJudged {policy : Policy} {push : Push} {before abuse : KeyedTable VmKey JudgedState}
    (rows : List (String × VmCurrent)) (hpolicy : (push, policy) ∈ s.evaluated) (habuse : abuse.All (Judged s))
    (hbefore : before.All (Judged s))
    (hcycle : ∀ vm state, before.get? (push.node, vm) = some state → state.lastEvalBucket = bucketFor push.time →
      state.policySame policy = true) : (writeJudged policy before push rows abuse).All (Judged s) := by
  have hwritten : ∀ t : KeyedTable VmKey JudgedState, t.All (Judged s) →
      (rows.foldl
        (fun t row =>
          t.upsert (push.node, row.1) (judge policy push row.1 (before.get? (push.node, row.1)) row.2)
            (KeyedTable.guarded fun state => state.lastSeen)) t).All (Judged s) := by
    induction rows with
    | nil => exact fun t ht => ht
    | cons row rest ih =>
        intro t ht
        rw [List.foldl_cons]
        have hnew : Judged s (judge policy push row.1 (before.get? (push.node, row.1)) row.2) :=
          judged_judge row.2 hpolicy (fun state hstate => hbefore _ (KeyedTable.mem_rows_of_get? hstate))
            (hcycle row.1)
        apply ih
        apply ht.upsert hnew
        intro old hold
        unfold KeyedTable.guarded
        split
        · exact hnew
        · exact hold
  apply hwritten
  split
  · exact habuse.deleteRows _
  · exact habuse

/-- A push that moves on in its reads is accounted for by the rows it has read. -/
theorem Accounted.setPhase (h : Accounted s) {push : Push} {phase : Phase}
    (hphase : ∀ policy before, phase = .states policy before → before.All (Judged s)) :
    Accounted (s.setPhase push.node push phase) where
  stored := h.stored
  named node reading hreading := by
    dsimp only [PolicyStore.setPhase] at hreading
    by_cases hnode : node = push.node
    · subst hnode
      rw [Function.update_self] at hreading
      cases hreading
      rfl
    · rw [Function.update_of_ne hnode] at hreading
      exact h.named node reading hreading
  seen node push' policy before hreading := by
    dsimp only [PolicyStore.setPhase] at hreading
    by_cases hnode : node = push.node
    · subst hnode
      rw [Function.update_self] at hreading
      cases hreading
      exact hphase policy before rfl
    · rw [Function.update_of_ne hnode] at hreading
      exact h.seen node push' policy before hreading

/-- What closing the transaction of a push leaves open. -/
theorem open_of_close {pushes : String → Option Reading} {node node' : String} {reading : Reading}
    (h : Function.update pushes node none node' = some reading) : pushes node' = some reading := by
  by_cases hnode : node' = node
  · subst hnode
    rw [Function.update_self] at h
    cases h
  · rwa [Function.update_of_ne hnode] at h

theorem Accounted.step {label : PolicyLabel} (h : Accounted s) (hok : RevisionKept numerals s label)
    (hstep : s.step numerals label = some s') : Accounted s' := by
  cases label with
  | start push =>
      dsimp only [PolicyStore.step] at hstep
      split at hstep <;> cases hstep
      exact h.setPhase (by rintro policy before ⟨⟩)
  | readRevision node =>
      dsimp only [PolicyStore.step] at hstep
      split at hstep <;> cases hstep
      rename_i push settings hreading
      obtain rfl : push.node = node := h.named node _ hreading
      exact h.setPhase (by rintro policy before ⟨⟩)
  | readRam node =>
      dsimp only [PolicyStore.step] at hstep
      split at hstep <;> cases hstep
      rename_i push settings revision hreading
      obtain rfl : push.node = node := h.named node _ hreading
      exact h.setPhase (by rintro policy before ⟨⟩)
  | readStates node =>
      dsimp only [PolicyStore.step] at hstep
      split at hstep <;> cases hstep
      rename_i push assembled hreading
      obtain rfl : push.node = node := h.named node _ hreading
      apply h.setPhase
      rintro policy before ⟨rfl, rfl⟩
      exact h.stored
  | commit node rows =>
      dsimp only [PolicyStore.step] at hstep
      split at hstep <;> cases hstep
      rename_i push policy before hreading
      obtain rfl : push.node = node := h.named node _ hreading
      have hgrown : ∀ t : KeyedTable VmKey JudgedState, t.All (Judged s) →
          t.All (Judged { s with evaluated := (push, policy) :: s.evaluated }) :=
        fun t ht row hrow => (ht row hrow).mono fun entry hentry => List.mem_cons_of_mem _ hentry
      refine ⟨fun node' reading hopen => h.named node' reading (open_of_close hopen), ?_, ?_⟩
      · dsimp only
        split
        · exact accounted_writeJudged rows List.mem_cons_self (hgrown _ h.stored)
            (hgrown _ (h.seen push.node push policy before hreading)) (hok push policy before hreading)
        · exact hgrown _ h.stored
      · intro node' push' policy' before' hopen
        exact hgrown before' (h.seen node' push' policy' before' (open_of_close hopen))
  | abort node =>
      cases hstep
      exact ⟨fun node' reading hopen => h.named node' reading (open_of_close hopen), h.stored,
        fun node' push policy before hopen => h.seen node' push policy before (open_of_close hopen)⟩
  | saveRead id | saveAbort id | restore items =>
      cases hstep
      exact ⟨h.named, h.stored, h.seen⟩
  | saveCommit id values now =>
      obtain ⟨read, -, rfl⟩ := Option.map_eq_some_iff.mp hstep
      unfold commitSave
      dsimp only
      split
      · exact ⟨h.named, h.stored, h.seen⟩
      · -- the rows are reset, and a reset row has no judges
        refine ⟨h.named, h.stored.update fun key state _ => ?_, h.seen⟩
        intro rule policy hpolicy
        cases hpolicy

/-! ## Runs -/

/-- **A revision names one policy.** In every run whose restores keep the thresholds and whose pushes read them
    unchanged, pushes evaluated under one revision were evaluated under one policy, the samples of each streak were
    judged by one policy, as many as the streak counts, and the stored revision never decreases. -/
theorem revision_names_policy (h : (policySystem numerals).Reachable (RevisionKept numerals) s) :
    (∀ a ∈ s.evaluated, ∀ b ∈ s.evaluated, a.2.revision = b.2.revision → a.2 = b.2) ∧
    (∀ row ∈ s.abuse.rows, ∀ rule, row.2.streakCycles rule ≤ (row.2.judges rule).length ∧
      ∀ p ∈ row.2.judges rule, ∀ q ∈ row.2.judges rule, p = q) ∧
    ∀ labels later, (policySystem numerals).exec System.AnyStep s labels = some later → s.revision ≤ later.revision := by
  have hnamed : Named numerals s := by
    apply h.invariant
    · rintro s ⟨settings, revision, -, rfl⟩
      have hnone : ∀ policy, ¬ Known numerals (PolicyStore.init settings revision) policy := by
        rintro policy (⟨push, hdone⟩ | ⟨node, reading, hreading, -⟩)
        · cases hdone
        · cases hreading
      exact ⟨fun policy hp => absurd hp (hnone policy), fun policy hp => absurd hp (hnone policy),
        fun p q hp => absurd hp (hnone p)⟩
    · intro s label s' hreach hs hok hstep
      obtain ⟨first, hnumbered⟩ := numbered_of_reachable hreach
      exact hs.step hnumbered hok hstep
  have haccounted : Accounted s := by
    apply h.invariant
    · rintro s ⟨settings, revision, -, rfl⟩
      refine ⟨?_, KeyedTable.all_empty _, ?_⟩
      · intro node reading hreading
        cases hreading
      · intro node push policy before hreading
        cases hreading
    · intro s label s' _ hs hok hstep
      exact hs.step hok hstep
  obtain ⟨first, hnumbered⟩ := numbered_of_reachable h
  have hone : ∀ a ∈ s.evaluated, ∀ b ∈ s.evaluated, a.2.revision = b.2.revision → a.2 = b.2 :=
    fun a ha b hb => hnamed.agree a.2 b.2 (.inl ⟨a.1, ha⟩) (.inl ⟨b.1, hb⟩)
  refine ⟨hone, ?_, fun labels later => revision_mono hnumbered⟩
  intro row hrow rule
  refine ⟨row.2.counted rule, ?_⟩
  intro p hp q hq
  obtain ⟨⟨a, ha⟩, hprev⟩ := haccounted.stored row hrow rule p hp
  obtain ⟨⟨b, hb⟩, hqrev⟩ := haccounted.stored row hrow rule q hq
  exact hone (a, p) ha (b, q) hb (hprev.trans hqrev.symm)

/-- The numbers in the texts of the defaults, and 50. -/
def Numerals.sample : Numerals :=
  let entries : List (String × Int) := [("0", 0), ("1", 1), ("5", 5), ("50", 50), ("90", 90), ("95", 95), ("270", 270),
    ("300", 300), ("600", 600), ("800", 800), ("900", 900), ("1800", 1800), ("5000", 5000), ("200000", 200000),
    ("209715200", 209715200)]
  { int := fun text => entries.lookup text
    float := fun text => (entries.lookup text).map fun n => (n : ℚ) }

/-- The steps of the push of one busy VM. -/
def pushSteps (time : Int) : List PolicyLabel :=
  [.start (Push.sample time), .readRevision "node1", .readRam "node1", .readStates "node1",
    .commit "node1" [("vm1", currentRow Policy.sample (Push.sample time) [("vm1", { cpuFullPercent := 100 })] "vm1")]]

theorem revision_names_policy_push : ∃ s, (policySystem Numerals.sample).Reachable (RevisionKept Numerals.sample) s ∧
    s.evaluated.length = 1 ∧ ∀ a ∈ s.evaluated, ∀ b ∈ s.evaluated, a.2.revision = b.2.revision → a.2 = b.2 := by
  have hstart : (policySystem Numerals.sample).Reachable (RevisionKept Numerals.sample) _ :=
    .step (l := .start (Push.sample 72000)) (.init ⟨fun _ => none, 1, le_refl 1, rfl⟩) trivial rfl
  have hrevision : (policySystem Numerals.sample).Reachable (RevisionKept Numerals.sample) _ :=
    .step (l := .readRevision "node1") hstart (by
      rintro push settings ⟨rfl⟩ revision
      rfl) rfl
  have hram : (policySystem Numerals.sample).Reachable (RevisionKept Numerals.sample) _ :=
    .step (l := .readRam "node1") hrevision (by
      rintro push settings revision ⟨rfl⟩ revision
      rfl) rfl
  have hstates : (policySystem Numerals.sample).Reachable (RevisionKept Numerals.sample) _ :=
    .step (l := .readStates "node1") hram trivial rfl
  have hcommit : (policySystem Numerals.sample).Reachable (RevisionKept Numerals.sample) _ :=
    .step (l := .commit "node1" []) hstates (by
      rintro push policy before ⟨rfl⟩ vm state hstate
      cases hstate) rfl
  exact ⟨_, hcommit, rfl, (revision_names_policy hcommit).1⟩

/-- A restore of a backup with a lower CPU threshold falls between two pushes. -/
def restoredRun : List PolicyLabel :=
  pushSteps 72000 ++ [.restore [("abuse_cpu_full_percent", "50")]] ++ pushSteps 72300

/-- Both pushes are evaluated under revision 1, the first with 90 percent and the second with 50. -/
theorem revision_renamed : ∃ s, (policySystem Numerals.sample).Reachable System.AnyStep s ∧
    ¬ ∀ a ∈ s.evaluated, ∀ b ∈ s.evaluated, a.2.revision = b.2.revision → a.2 = b.2 := by
  have hrun : (((policySystem Numerals.sample).exec System.AnyStep (PolicyStore.init (fun _ => none) 1)
      restoredRun).map fun s => s.evaluated.map fun entry => (entry.2.revision, entry.2.cpuFullPercent)) =
      some [(1, 50), (1, 90)] := by decide +kernel
  obtain ⟨s, hexec, hvalues⟩ := Option.map_eq_some_iff.mp hrun
  refine ⟨s, .exec (.init ⟨_, 1, le_refl 1, rfl⟩) hexec, fun hone => ?_⟩
  have hsecond : ((1 : Int), (50 : ℚ)) ∈ s.evaluated.map fun entry => (entry.2.revision, entry.2.cpuFullPercent) := by
    rw [hvalues]
    exact List.mem_cons_self
  have hfirst : ((1 : Int), (90 : ℚ)) ∈ s.evaluated.map fun entry => (entry.2.revision, entry.2.cpuFullPercent) := by
    rw [hvalues]
    exact List.mem_cons_of_mem _ List.mem_cons_self
  obtain ⟨a, ha, hafter⟩ := List.mem_map.mp hsecond
  obtain ⟨b, hb, hbefore⟩ := List.mem_map.mp hfirst
  obtain ⟨harev, hacpu⟩ := Prod.mk.inj hafter
  obtain ⟨hbrev, hbcpu⟩ := Prod.mk.inj hbefore
  have hcpu := congrArg Policy.cpuFullPercent (hone a ha b hb (harev.trans hbrev.symm))
  rw [hacpu, hbcpu] at hcpu
  norm_num at hcpu

end VirtInfra.Abuse
