import VirtInfra.Lib.Window
import VirtInfra.Python.Prelude

/-!
# `Clock` — buckets, local hours and days, and the five-minute slot of a push

`bucket_for`, `local_hour_start`, `local_day_start` and `_r2211_slot_coordinates`. The timezone offset
`RETENTION_TZ_OFFSET_SECONDS` comes from the environment, so it is a parameter everywhere and nothing below
assumes that it is a multiple of a bucket. An agent's `data_time` ends the sampled interval, so the slot of a
push is the bucket before the one its time falls in.
-/

namespace VirtInfra.Consumption

open Lib Python

/-- `CACHE_BUCKET_SECONDS`. -/
abbrev cacheBucketSeconds : Int := 300

/-- `bucket_for(ts)`. -/
def bucketFor (ts : Int) : Int := ts / cacheBucketSeconds * cacheBucketSeconds

/-- `local_hour_start(ts)`, with `RETENTION_TZ_OFFSET_SECONDS = off`. -/
def localHourStart (off ts : Int) : Int := (ts + off) / 3600 * 3600 - off

/-- `local_day_start(ts)`. -/
def localDayStart (off ts : Int) : Int := (ts + off) / 86400 * 86400 - off

/-- `_r21_ceil_hour(ts)` and `_r2210_ceil_hour(ts)`, which are the same function. -/
def ceilHour (off ts : Int) : Int :=
  if ts = localHourStart off ts then localHourStart off ts else localHourStart off ts + 3600

structure SlotCoordinates where
  slotStart : Int
  hourStart : Int
  dayStart : Int
  slotNo : Int
  deriving DecidableEq, Repr

/-- `_r2211_slot_coordinates(data_time)`. -/
def slotCoordinates (off dataTime : Int) : SlotCoordinates :=
  let slotStart := bucketFor dataTime - cacheBucketSeconds
  let hourStart := localHourStart off slotStart
  let dayStart := localDayStart off slotStart
  { slotStart, hourStart, dayStart
    slotNo := clamp 0 11 ((slotStart - hourStart) / cacheBucketSeconds) }

/-- The five-minute slot of a push. -/
def slotOf (dataTime : Int) : Int := bucketFor dataTime - cacheBucketSeconds

/-- A push at 20:00 belongs to 19:55-20:00, slot 11 of the 19:00 hour. -/
example : slotCoordinates 0 72000 = ⟨71700, 68400, 0, 11⟩ := by decide

/-! ## The grids behind the clock -/

theorem bucketFor_eq_gridFloor (ts : Int) : bucketFor ts = gridFloor 300 0 ts := by
  simp [bucketFor, gridFloor, cacheBucketSeconds]

theorem bucketFor_mono {a b : Int} (h : a ≤ b) : bucketFor a ≤ bucketFor b := by
  unfold bucketFor cacheBucketSeconds
  omega

/-- `x` is the start of a local hour. -/
abbrev OnHour (off x : Int) : Prop := OnGrid 3600 off x

/-- `x` is the start of a local day. -/
abbrev OnDay (off x : Int) : Prop := OnGrid 86400 off x

/-- **A five-minute-aligned time.** -/
abbrev Aligned (x : Int) : Prop := OnGrid 300 0 x

theorem OnDay.onHour {off x : Int} (h : OnDay off x) : OnHour off x := h.finer (by decide)

theorem bucketFor_le (t : Int) : bucketFor t ≤ t := by
  rw [bucketFor_eq_gridFloor]; exact gridFloor_le (by decide)

theorem slotOf_lt (t : Int) : slotOf t < t := by
  have := bucketFor_le t
  unfold slotOf cacheBucketSeconds; omega

theorem slotOf_le_bucketFor (t : Int) : slotOf t ≤ bucketFor t := by
  unfold slotOf cacheBucketSeconds; omega

theorem aligned_bucketFor (t : Int) : Aligned (bucketFor t) := by
  rw [bucketFor_eq_gridFloor]; exact onGrid_gridFloor

theorem aligned_slotOf (t : Int) : Aligned (slotOf t) := by
  obtain ⟨k, hk⟩ := aligned_bucketFor t
  exact ⟨k - 1, by unfold slotOf cacheBucketSeconds; omega⟩

theorem localHourStart_le (off t : Int) : localHourStart off t ≤ t := gridFloor_le (by decide)

theorem lt_localHourStart_add (off t : Int) : t < localHourStart off t + 3600 := lt_gridFloor_add (by decide)

/-- A time and its local hour are on the same local day. -/
theorem localDayStart_localHourStart (off t : Int) : localDayStart off (localHourStart off t) = localDayStart off t := by
  have hday : OnDay off (localDayStart off t) := onGrid_gridFloor
  have hday' : OnDay off (localDayStart off (localHourStart off t)) := onGrid_gridFloor
  have hle : localDayStart off t ≤ t := gridFloor_le (by decide)
  have hle' : localDayStart off (localHourStart off t) ≤ localHourStart off t := gridFloor_le (by decide)
  apply le_antisymm
  · exact (hday'.le_gridFloor_iff (by decide)).mpr (hle'.trans (localHourStart_le off t))
  · exact (hday.le_gridFloor_iff (by decide)).mpr ((hday.onHour.le_gridFloor_iff (by decide)).mpr hle)

/-- The slot index within its hour needs no clamping. -/
theorem slotNo_eq (off t : Int) :
    (slotCoordinates off t).slotNo = (slotOf t - localHourStart off (slotOf t)) / 300 := by
  have h₁ := localHourStart_le off (slotOf t)
  have h₂ := lt_localHourStart_add off (slotOf t)
  show clamp 0 11 ((slotOf t - localHourStart off (slotOf t)) / 300) = _
  exact clamp_of_mem (by omega) (by omega)

end VirtInfra.Consumption
