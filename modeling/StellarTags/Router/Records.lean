import StellarTags.Library.Allowances
import StellarTags.Library.PositionalNumerals
import StellarTags.Library.Runs
import StellarTags.Library.Twins
import StellarTags.Router.Accounting

/-! A sender's stored record as bytes, and the daily limit over any run of accruals. -/

namespace StellarTags.Router

open Library.Transactions Library.Integers Library.Runs Library.BigEndian Library.Allowances Soroban

section Packing

abbrev BytesN (n : ℕ) := {b : Bytes // b.length = n}

/-- The bit `i` of the bitmap is the bit `i % 8` of the byte `i / 8`. -/
def flagBytes (flags : BitVec 256) : Bytes := (toBytes 32 flags.toNat).reverse

def packUserRecord (record : UserRecord) : BytesN 72 :=
  ⟨toBytes 8 record.lastResetTime ++ toBytesSigned 16 record.accumulatedAmount ++
      toBytesSigned 16 record.volume ++ flagBytes record.flags, by simp [flagBytes]⟩

def unpackUserRecord (packed : BytesN 72) : UserRecord where
  lastResetTime := ofBytes (packed.val.take 8)
  accumulatedAmount := ofBytesSigned 16 ((packed.val.drop 8).take 16)
  volume := ofBytesSigned 16 ((packed.val.drop 24).take 16)
  flags := BitVec.ofNat 256 (ofBytes (packed.val.drop 40).reverse)

def unpackLegacySpending (packed : BytesN 24) : ℕ × ℤ :=
  (ofBytes (packed.val.take 8), ofBytesSigned 16 (packed.val.drop 8))

lemma fits_iff_bytes {n : ℤ} : FitsI128 n ↔ -(256 ^ 16 : ℤ) ≤ 2 * n ∧ 2 * n < 256 ^ 16 := by
  simp only [FitsI128, minI128, maxI128]
  omega

lemma record_slices {α : Type} {a b c d : List α} (ha : a.length = 8) (hb : b.length = 16)
    (hc : c.length = 16) : (a ++ b ++ c ++ d).take 8 = a ∧
      ((a ++ b ++ c ++ d).drop 8).take 16 = b ∧ ((a ++ b ++ c ++ d).drop 24).take 16 = c ∧
        (a ++ b ++ c ++ d).drop 40 = d := by
  have hab : (a ++ b).length = 24 := by simp [ha, hb]
  have habc : (a ++ b ++ c).length = 40 := by simp [ha, hb, hc]
  refine ⟨?_, ?_, ?_, List.drop_left' habc⟩
  · rw [List.append_assoc, List.append_assoc, List.take_left' ha]
  · rw [List.append_assoc, List.append_assoc, List.drop_left' ha, List.take_left' hb]
  · rw [List.append_assoc, List.drop_left' hab, List.take_left' hc]

lemma ofBytes_flagBytes (flags : BitVec 256) :
    BitVec.ofNat 256 (ofBytes (flagBytes flags).reverse) = flags := by
  have hlt : flags.toNat < 256 ^ 32 := flags.isLt
  rw [flagBytes, List.reverse_reverse, ofBytes_toBytes hlt]
  simp

lemma unpack_pack {record : UserRecord} (ht : record.lastResetTime ≤ maxU64)
    (ha : FitsI128 record.accumulatedAmount) (hv : FitsI128 record.volume) :
    unpackUserRecord (packUserRecord record) = record := by
  have htime : record.lastResetTime < 256 ^ 8 := by
    simp only [maxU64] at ht
    omega
  have haccumulated := fits_iff_bytes.mp ha
  have hvolume := fits_iff_bytes.mp hv
  obtain ⟨h1, h2, h3, h4⟩ := record_slices (d := flagBytes record.flags)
    (length_toBytes 8 record.lastResetTime) (length_toBytesSigned 16 record.accumulatedAmount)
    (length_toBytesSigned 16 record.volume)
  rw [unpackUserRecord, packUserRecord]
  simp only [h1, h2, h3, h4, ofBytes_toBytes htime, ofBytes_flagBytes,
    ofBytesSigned_toBytesSigned haccumulated.1 haccumulated.2,
    ofBytesSigned_toBytesSigned hvolume.1 hvolume.2]

lemma saturateI128_fits (n : ℤ) : FitsI128 (saturateI128 n) := by
  simp only [saturateI128, FitsI128, minI128, maxI128]
  omega

lemma unpack_volume_fits (packed : BytesN 72) : FitsI128 (unpackUserRecord packed).volume :=
  fits_iff_bytes.mpr (ofBytesSigned_bounds (by simp [packed.property]))

end Packing

def UserRecord.charge (record : UserRecord) (amount : ℤ) : UserRecord :=
  { record with
    accumulatedAmount := record.accumulatedAmount + amount
    volume := saturateI128 (record.volume + amount) }

/-- One user's entries: the packed record, and the two it replaces. -/
structure UserEntries where
  userRecord : Option (BytesN 72) := none
  userSpending : Option (BytesN 24) := none
  userVolume : Option {v : ℤ // FitsI128 v} := none

namespace UserEntries

variable (e : UserEntries)

def loadLegacyRecord (currentTime : ℕ) : UserRecord × Bool :=
  let legacySpending := e.userSpending.map unpackLegacySpending
  let legacyVolume := (e.userVolume.map Subtype.val).getD 0
  let spending := legacySpending.getD (currentTime, 0)
  (⟨spending.1, spending.2, legacyVolume, 0⟩,
    legacySpending.isSome || decide (legacyVolume ≠ 0))

def loadUserRecord (currentTime : ℕ) : UserRecord × Bool :=
  match e.userRecord with
  | some packed => (unpackUserRecord packed, false)
  | none => e.loadLegacyRecord currentTime

/-- `accrue_user_record` on the entries as they are stored. -/
def accrue (env : Env) (amount : ℤ) : Tx UserEntries Error ℤ := do
  let loaded ← Tx.read fun e => e.loadUserRecord env.timestamp
  let elapsed ← subU64 env.timestamp loaded.1.lastResetTime
  let record : UserRecord :=
    if secondsIn24h ≤ elapsed then
      { loaded.1 with lastResetTime := env.timestamp, accumulatedAmount := 0 }
    else loaded.1
  let newAccumulated := record.accumulatedAmount + amount
  Tx.reject (¬ FitsI128 newAccumulated) .limitExceeded
  Tx.reject (dailyMaxLimit < newAccumulated) .limitExceeded
  let newVolume := saturateI128 (record.volume + amount)
  Tx.update fun e => { e with userRecord := some (packUserRecord
    { record with accumulatedAmount := newAccumulated, volume := newVolume }) }
  Tx.whenever (loaded.2 = true)
    (Tx.update fun e => { e with userSpending := none, userVolume := none })
  pure record.volume

def window : Option Window :=
  match e.userRecord with
  | some packed =>
    some ⟨(unpackUserRecord packed).lastResetTime, (unpackUserRecord packed).accumulatedAmount⟩
  | none => e.userSpending.map fun packed =>
    ⟨(unpackLegacySpending packed).1, (unpackLegacySpending packed).2⟩

def volume : ℤ :=
  match e.userRecord with
  | some packed => (unpackUserRecord packed).volume
  | none => (e.userVolume.map Subtype.val).getD 0

variable {e} in
lemma window_of_record {packed : BytesN 72} (h : e.userRecord = some packed) : e.window =
    some ⟨(unpackUserRecord packed).lastResetTime, (unpackUserRecord packed).accumulatedAmount⟩ := by
  rw [window, h]

variable {e} in
lemma volume_of_record {packed : BytesN 72} (h : e.userRecord = some packed) :
    e.volume = (unpackUserRecord packed).volume := by
  rw [volume, h]

lemma volume_fits : FitsI128 e.volume := by
  cases hr : e.userRecord with
  | some packed => simpa [volume, hr] using unpack_volume_fits packed
  | none =>
    cases hv : e.userVolume with
    | some v => simpa [volume, hr, hv] using v.property
    | none =>
      simpa [volume, hr, hv] using fitsI128_zero

lemma loadUserRecord_volume (now : ℕ) : (e.loadUserRecord now).1.volume = e.volume := by
  cases hr : e.userRecord with
  | some packed => simp [loadUserRecord, volume, hr]
  | none => simp [loadUserRecord, loadLegacyRecord, volume, hr]

/-- The record at hand, in a new window if the last one ran out. -/
def turned (now : ℕ) : UserRecord :=
  if secondsIn24h ≤ now - (e.loadUserRecord now).1.lastResetTime then
    { (e.loadUserRecord now).1 with lastResetTime := now, accumulatedAmount := 0 }
  else (e.loadUserRecord now).1

lemma turned_volume (now : ℕ) : (e.turned now).volume = e.volume := by
  rw [turned, apply_ite UserRecord.volume, ite_self, loadUserRecord_volume]

lemma turned_past {now : ℕ} (h : (e.loadUserRecord now).1.lastResetTime ≤ now) :
    (e.turned now).lastResetTime ≤ now := by
  rw [turned]
  split
  · exact le_rfl
  · exact h

lemma turned_window (now : ℕ) :
    (⟨(e.turned now).lastResetTime, (e.turned now).accumulatedAmount⟩ : Window) =
      current secondsIn24h e.window now := by
  have hopen (r : UserRecord) :
      (⟨(if secondsIn24h ≤ now - r.lastResetTime then
          { r with lastResetTime := now, accumulatedAmount := 0 } else r).lastResetTime,
        (if secondsIn24h ≤ now - r.lastResetTime then
          { r with lastResetTime := now, accumulatedAmount := 0 } else r).accumulatedAmount⟩ :
        Window) = current secondsIn24h (some ⟨r.lastResetTime, r.accumulatedAmount⟩) now := by
    have hiff : secondsIn24h ≤ now - r.lastResetTime ↔ r.lastResetTime + secondsIn24h ≤ now := by
      simp only [secondsIn24h]
      omega
    by_cases hout : r.lastResetTime + secondsIn24h ≤ now
    · simp [current, hiff, hout]
    · simp [current, hiff, hout]
  rw [turned, hopen]
  cases hr : e.userRecord with
  | some packed => simp only [loadUserRecord, window, hr]
  | none =>
    cases hs : e.userSpending with
    | some packed =>
      simp only [loadUserRecord, loadLegacyRecord, window, hr, hs, Option.map_some,
        Option.getD_some]
    | none => simp [loadUserRecord, loadLegacyRecord, window, hr, hs, current, secondsIn24h]

variable {e} {env : Env} {amount v : ℤ} {e' : UserEntries}

lemma accrue_ok (htime : env.timestamp ≤ maxU64) (h : accrue env amount e = .ok (v, e')) :
    let w := current secondsIn24h e.window env.timestamp
    w.spent + amount ≤ dailyMaxLimit ∧ e'.window = some ⟨w.start, w.spent + amount⟩ ∧
      e'.volume = saturateI128 (e.volume + amount) := by
  simp only [accrue, Tx.read_bind, subU64_bind_ok, Tx.reject_bind_ok, not_not, not_lt,
    Tx.update_bind, ← turned.eq_1] at h
  obtain ⟨hpast, hfits, hlimit, h⟩ := h
  have hstored : e'.userRecord =
      some (packUserRecord ((e.turned env.timestamp).charge amount)) := by
    obtain ⟨u, hu, hv⟩ := Tx.bind_unit_ok.mp h
    obtain ⟨-, rfl⟩ := Tx.pure_ok.mp hv
    rcases Tx.whenever_ok.mp hu with ⟨-, hu⟩ | ⟨-, rfl⟩
    · rw [Tx.update_ok.mp hu]
      rfl
    · rfl
  have hunpacked : unpackUserRecord (packUserRecord ((e.turned env.timestamp).charge amount)) =
      (e.turned env.timestamp).charge amount :=
    unpack_pack ((e.turned_past hpast).trans htime) hfits (saturateI128_fits _)
  have hwindow := e.turned_window env.timestamp
  refine ⟨?_, ?_, ?_⟩
  · rw [← hwindow]
    exact hlimit
  · rw [window_of_record hstored, hunpacked, ← hwindow]
    rfl
  · rw [volume_of_record hstored, hunpacked, ← turned_volume e env.timestamp]
    rfl

/-- The entries as the router's storage holds them, unpacked. -/
structure Represents (user : Address) (e : UserEntries) (t : Traffic) : Prop where
  record : t.userRecord user = e.userRecord.map unpackUserRecord
  spending : t.userSpending user = e.userSpending.map unpackLegacySpending
  volume : t.userVolume user = e.userVolume.map Subtype.val

namespace Represents

variable {user : Address} {t : Traffic}

lemma loadUserRecord (h : Represents user e t) (now : ℕ) :
    e.loadUserRecord now = t.loadUserRecord user now := by
  cases hr : e.userRecord with
  | some packed => simp [UserEntries.loadUserRecord, Traffic.loadUserRecord, h.record, hr]
  | none =>
    simp [UserEntries.loadUserRecord, Traffic.loadUserRecord, Traffic.loadLegacyRecord,
      loadLegacyRecord, h.record, hr, h.spending, h.volume]

lemma setUserRecord (h : Represents user e t) {record : UserRecord}
    (hr : unpackUserRecord (packUserRecord record) = record) :
    Represents user { e with userRecord := some (packUserRecord record) }
      (t.setUserRecord user record) :=
  ⟨by simp [Traffic.setUserRecord, hr], h.spending, h.volume⟩

lemma dropLegacyRecord (h : Represents user e t) :
    Represents user { e with userSpending := none, userVolume := none }
      (t.dropLegacyRecord user) :=
  ⟨h.record, by simp [Traffic.dropLegacyRecord], by simp [Traffic.dropLegacyRecord]⟩

end Represents

lemma subU64_twin {σ τ ε β : Type} {R : σ → τ → Prop} {f : ℕ → Tx σ ε β} {g : ℕ → Tx τ ε β}
    {a b : ℕ} (h : b ≤ a → Tx.Twin R (f (a - b)) (g (a - b))) :
    Tx.Twin R (subU64 a b >>= f) (subU64 a b >>= g) := by
  intro s t hs
  by_cases hle : b ≤ a
  · rw [Tx.bind_of_ok (subU64_ok.mpr ⟨hle, rfl, rfl⟩), Tx.bind_of_ok (subU64_ok.mpr ⟨hle, rfl, rfl⟩)]
    exact h hle s t hs
  · exact .inl ⟨.trap, by simp [Bind.bind, subU64, Tx.demand, hle, Tx.trap],
      by simp [Bind.bind, subU64, Tx.demand, hle, Tx.trap]⟩

/-- The packed entries do what the router's accrual does with the record. -/
theorem accrue_refines (user : Address) (htime : env.timestamp ≤ maxU64) (amount : ℤ) :
    Tx.Twin (Represents user) (accrue env amount) (accrueUserRecord env user amount) := by
  refine .bind (.read fun _ _ h => h.loadUserRecord _) fun loaded => ?_
  refine subU64_twin fun hpast => ?_
  have hturned : (if secondsIn24h ≤ env.timestamp - loaded.1.lastResetTime then
      { loaded.1 with lastResetTime := env.timestamp, accumulatedAmount := 0 }
      else loaded.1).lastResetTime ≤ maxU64 := by
    split
    · exact htime
    · exact hpast.trans htime
  refine .reject_then fun hfits => .bind .reject fun _ => .bind (.update fun e t h => ?_) fun _ =>
    .bind (.whenever (.update fun e t h => h.dropLegacyRecord)) fun _ => .pure _
  exact h.setUserRecord (unpack_pack hturned (not_not.mp hfits) (saturateI128_fits _))

end UserEntries

section Runs

variable {initial e : UserEntries} {log : List Spend} {clock : ℕ} {s : Spend}

def accrual (s : Spend) : UserEntries → UserEntries :=
  Tx.commit (UserEntries.accrue { timestamp := s.time } s.amount)

def UserEntries.accrues (e : UserEntries) (s : Spend) : Bool :=
  Tx.succeeds (UserEntries.accrue { timestamp := s.time } s.amount) e

def accrued (e : UserEntries) (attempts : List Spend) : List Spend :=
  trace accrual (fun e s => if e.accrues s = true then [s] else []) e attempts

lemma saturate_add {n m k : ℤ} (hn : FitsI128 n) (hm : 0 ≤ m) (hk : 0 ≤ k) :
    saturateI128 (saturateI128 (n + m) + k) = saturateI128 (n + (m + k)) := by
  simp only [saturateI128, FitsI128, minI128, maxI128] at hn ⊢
  omega

lemma total_append (log new : List Spend) : total (log ++ new) = total log + total new := by
  simp [total]

lemma total_nonneg (h : ∀ s ∈ log, 0 < s.amount) : 0 ≤ total log := by
  refine List.sum_nonneg fun n hn => ?_
  obtain ⟨s, hs, rfl⟩ := List.mem_map.mp hn
  exact (h s hs).le

/-- The law of the windows, with the volume beside it. -/
structure Keeps (initial : UserEntries) (log : List Spend) (e : UserEntries) (clock : ℕ) :
    Prop where
  law : Law secondsIn24h dailyMaxLimit initial.window log e.window clock
  twice : Twice secondsIn24h dailyMaxLimit initial.window log
  volume : e.volume = saturateI128 (initial.volume + total log)

lemma dailyMaxLimit_nonneg : 0 ≤ dailyMaxLimit := by decide

lemma Keeps.accrual (h : Keeps initial log e clock) (hnow : clock ≤ s.time)
    (htime : s.time ≤ maxU64) (hpos : 0 < s.amount) :
    ∃ now, now ≤ s.time ∧
      Keeps initial (log ++ if e.accrues s = true then [s] else []) (accrual s e) now := by
  cases hok : e.accrues s with
  | false =>
    have he : Router.accrual s e = e := Tx.commit_of_fails hok
    exact ⟨clock, hnow, by simpa [he] using h⟩
  | true =>
    obtain ⟨v, hv⟩ := Tx.succeeds_iff.mp hok
    obtain ⟨hlimit, hwindow, hvolume⟩ := UserEntries.accrue_ok htime hv
    have hturned := h.law.turn (by decide) dailyMaxLimit_nonneg hnow
    have hlaw := hturned.spend (current_lasts (by decide)) hpos hlimit
    refine ⟨s.time, le_rfl, ?_, h.twice.spend dailyMaxLimit_nonneg hlaw, ?_⟩
    · rw [Router.accrual, hwindow]
      exact hlaw
    · rw [Router.accrual, hvolume, h.volume, saturate_add initial.volume_fits
        (total_nonneg h.law.positive) hpos.le, if_pos rfl, total_append]
      simp [total]

lemma Keeps.run (h : Keeps initial log e clock) (attempts : List Spend)
    (hvalid : ∀ s ∈ attempts, 0 < s.amount ∧ s.time ≤ maxU64)
    (hsorted : attempts.Pairwise (·.time ≤ ·.time)) (hclock : ∀ s ∈ attempts, clock ≤ s.time) :
    ∃ now, Keeps initial (log ++ accrued e attempts) (run Router.accrual e attempts) now := by
  induction attempts generalizing log e clock with
  | nil => exact ⟨clock, by simpa [accrued, trace] using h⟩
  | cons s attempts ih =>
    obtain ⟨hpos, htime⟩ := hvalid s (by simp)
    obtain ⟨hlater, hsorted⟩ := List.pairwise_cons.mp hsorted
    obtain ⟨now, hnow, hnext⟩ := h.accrual (hclock s (by simp)) htime hpos
    have hrest := ih hnext (fun r hr => hvalid r (by simp [hr])) hsorted
      fun r hr => hnow.trans (hlater r hr)
    simpa [accrued, trace, List.append_assoc] using hrest

lemma Keeps.start (h : ∀ w ∈ e.window, w.start ≤ clock ∧ w.spent ≤ dailyMaxLimit) :
    Keeps e [] e clock := by
  refine ⟨.start dailyMaxLimit_nonneg h, .start dailyMaxLimit_nonneg, ?_⟩
  have hfits := e.volume_fits
  simp only [total, List.map_nil, List.sum_nil, add_zero, saturateI128, FitsI128] at hfits ⊢
  omega

/-- What a user's entries say after the accruals in `log`, and what the next attempt may do. -/
structure DailyLaw (initial : UserEntries) (log : List Spend) (e : UserEntries) : Prop where
  accumulated : ∀ w ∈ e.window, w.spent = carried initial.window w + spentWhen (w.start ≤ ·) log ∧
    w.spent ≤ dailyMaxLimit
  recorded : log ≠ [] → e.window.isSome = true
  volume : e.volume = saturateI128 (initial.volume + total log)
  interval : ∀ t, spentWhen (fun x => t ≤ x ∧ x ≤ t + secondsIn24h) log ≤
    2 * dailyMaxLimit + shortfall initial.window
  renewed : ∀ s : Spend, s.time ≤ maxU64 → ∀ w ∈ e.window, ∃ w' ∈ (Router.accrual s e).window,
    w'.start = w.start ∨ w'.start = s.time ∧ w.start + secondsIn24h ≤ s.time
  failed : ∀ s : Spend, e.accrues s = false → Router.accrual s e = e

lemma renewed_window (s : Spend) (htime : s.time ≤ maxU64) {w : Window} (hw : w ∈ e.window) :
    ∃ w' ∈ (Router.accrual s e).window,
      w'.start = w.start ∨ w'.start = s.time ∧ w.start + secondsIn24h ≤ s.time := by
  cases hok : e.accrues s with
  | false =>
    have he : Router.accrual s e = e := Tx.commit_of_fails hok
    exact ⟨w, by rwa [he], .inl rfl⟩
  | true =>
    obtain ⟨v, hv⟩ := Tx.succeeds_iff.mp hok
    obtain ⟨-, hwindow, -⟩ := UserEntries.accrue_ok htime hv
    refine ⟨_, hwindow, ?_⟩
    rw [Option.mem_def] at hw
    by_cases hout : w.start + secondsIn24h ≤ s.time
    · simp [hw, current, hout]
    · simp [hw, current, hout]

/-- Over any run of accruals the daily figure is what was carried over plus what was accrued in its
window, within the limit; any 24 hours see at most two limits, more only by what the stored figure
was below zero. -/
theorem daily_limit_law (initial : UserEntries) (attempts : List Spend)
    (hvalid : ∀ s ∈ attempts, 0 < s.amount ∧ s.time ≤ maxU64)
    (hsorted : attempts.Pairwise (·.time ≤ ·.time))
    (hstart : ∀ w ∈ initial.window, w.spent ≤ dailyMaxLimit ∧ ∀ s ∈ attempts, w.start ≤ s.time) :
    DailyLaw initial (accrued initial attempts) (run Router.accrual initial attempts) := by
  have hclock : ∃ clock, (∀ w ∈ initial.window, w.start ≤ clock ∧ w.spent ≤ dailyMaxLimit) ∧
      ∀ s ∈ attempts, clock ≤ s.time := by
    cases hw : initial.window with
    | none => exact ⟨0, by simp, by simp⟩
    | some w =>
      obtain ⟨hle, hpast⟩ := hstart w hw
      exact ⟨w.start, by simpa using hle, hpast⟩
  obtain ⟨clock, hopened, hpast⟩ := hclock
  obtain ⟨now, hkeeps⟩ := (Keeps.start hopened).run attempts hvalid hsorted hpast
  rw [List.nil_append] at hkeeps
  refine ⟨fun w hw => ⟨hkeeps.law.spent w hw, hkeeps.law.limited w hw⟩, fun hne => ?_,
    hkeeps.volume, hkeeps.twice, fun s htime w => renewed_window s htime,
    fun s => Tx.commit_of_fails⟩
  by_contra hnone
  exact hne (hkeeps.law.fresh (by simpa using hnone)).2

end Runs

section Examples

/-- A packed record whose window opened at 50, three units into its limit. -/
def stored : UserEntries := { userRecord := some (packUserRecord ⟨50, 3, 7, 0⟩) }

/-- The second day's accrual comes as soon as the first window ran out. -/
def twoDays : List Spend := [⟨100, 10⟩, ⟨80000, 9999999999987⟩, ⟨86450, 10000000000000⟩]

theorem daily_limit_law_stored :
    DailyLaw stored (accrued stored twoDays) (run accrual stored twoDays) :=
  daily_limit_law stored twoDays (by decide) (by decide) (by decide +kernel)

example : accrued stored twoDays = twoDays := by decide +kernel

def overdrawn : UserEntries := { userRecord := some (packUserRecord ⟨0, -40000000000000, 0, 0⟩) }

/-- A stored figure below zero lets more than two limits through at once. -/
theorem overdrawn_exceeds :
    (∀ w ∈ overdrawn.window, w.start ≤ 0 ∧ w.spent ≤ dailyMaxLimit) ∧
      2 * dailyMaxLimit < spentWhen (fun x => 0 ≤ x ∧ x ≤ 0 + secondsIn24h)
        (accrued overdrawn [⟨0, 50000000000000⟩]) := by
  decide +kernel

end Examples

end StellarTags.Router
