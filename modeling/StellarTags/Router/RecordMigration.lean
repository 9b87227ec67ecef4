import StellarTags.Router.Records
import StellarTags.Router.Administration

/-! The migration of a sender's old entries to the packed record. -/

namespace StellarTags.Router

open Library.Transactions Library.Integers Library.Runs Library.BigEndian Library.Allowances Soroban

/-- The entries of every user, and the events that report a migration, the latest first. -/
structure UserStore where
  entries : Address → UserEntries
  migrated : List (Address × ℤ) := []

def flagGet (flags : BitVec 256) (bit : Fin 256) : Bool := flags.getLsbD bit

def flagSet (flags : BitVec 256) (bit : Fin 256) (val : Bool) : BitVec 256 :=
  if val then flags ||| BitVec.twoPow 256 bit else flags &&& ~~~(BitVec.twoPow 256 bit)

namespace UserStore

variable (s : UserStore)

def setEntries (user : Address) (e : UserEntries) : UserStore :=
  { s with entries := Function.update s.entries user e }

def setUserRecord (user : Address) (record : UserRecord) : UserStore :=
  s.setEntries user { s.entries user with userRecord := some (packUserRecord record) }

def dropLegacyRecord (user : Address) : UserStore :=
  s.setEntries user { s.entries user with userSpending := none, userVolume := none }

def getUserRecord (env : Env) (user : Address) : UserRecord :=
  ((s.entries user).loadUserRecord env.timestamp).1

def userHasFlag (sender : Address) (bit : Fin 256) : Bool :=
  match (s.entries sender).userRecord with
  | none => false
  | some packed => flagGet (unpackUserRecord packed).flags bit

def userSetFlag (env : Env) (sender : Address) (bit : Fin 256) (val : Bool) :
    Tx UserStore Error Unit :=
  Tx.update fun s =>
    let record := ((s.entries sender).loadUserRecord env.timestamp).1
    s.setUserRecord sender { record with flags := flagSet record.flags bit val }

def migrateUserRecord (env : Env) (user : Address) : Tx UserStore Error Bool := do
  let hasPacked ← Tx.read fun s => (s.entries user).userRecord.isSome
  let legacy ← Tx.read fun s => (s.entries user).loadLegacyRecord env.timestamp
  if legacy.2 = false then pure false
  else do
    Tx.whenever (hasPacked = false) (Tx.update fun s => s.setUserRecord user legacy.1)
    Tx.update fun s => s.dropLegacyRecord user
    Tx.update fun s => { s with migrated := (user, legacy.1.volume) :: s.migrated }
    pure true

end UserStore

namespace UserEntries

variable {e f : UserEntries} {env : Env} {amount : ℤ} {now t : ℕ}

section Accruals

def outcome (e : UserEntries) (s : Spend) : Except (Failure Error) ℤ :=
  (accrue { timestamp := s.time } s.amount e).map Prod.fst

def charged (e : UserEntries) (now : ℕ) (amount : ℤ) : UserEntries :=
  let packed := some (packUserRecord ((e.turned now).charge amount))
  if (e.loadUserRecord now).2 = true then { userRecord := packed } else { e with userRecord := packed }

lemma charged_record : (e.charged now amount).userRecord =
    some (packUserRecord ((e.turned now).charge amount)) := by
  rw [charged]
  split
  · rfl
  · rfl

lemma accrue_eq : accrue env amount e =
    if (e.loadUserRecord env.timestamp).1.lastResetTime ≤ env.timestamp then
      if FitsI128 ((e.turned env.timestamp).accumulatedAmount + amount) ∧
          (e.turned env.timestamp).accumulatedAmount + amount ≤ dailyMaxLimit then
        .ok ((e.turned env.timestamp).volume, e.charged env.timestamp amount)
      else .error (.err .limitExceeded)
    else .error .trap := by
  rw [accrue, Tx.read_bind]
  by_cases hpast : (e.loadUserRecord env.timestamp).1.lastResetTime ≤ env.timestamp
  · rw [if_pos hpast, Tx.bind_of_ok (subU64_ok.mpr ⟨hpast, rfl, rfl⟩), ← turned.eq_1]
    dsimp only
    rw [Tx.reject_bind, Tx.reject_bind]
    by_cases hfits : FitsI128 ((e.turned env.timestamp).accumulatedAmount + amount)
    · rw [if_neg (not_not.mpr hfits)]
      by_cases hlimit : (e.turned env.timestamp).accumulatedAmount + amount ≤ dailyMaxLimit
      · rw [if_neg hlimit.not_gt, if_pos ⟨hfits, hlimit⟩, Tx.update_bind, charged]
        by_cases hlegacy : (e.loadUserRecord env.timestamp).2 = true
        · rw [Tx.whenever, if_pos hlegacy, if_pos hlegacy]
          rfl
        · rw [Tx.whenever, if_neg hlegacy, if_neg hlegacy]
          rfl
      · rw [if_pos (not_le.mp hlimit), if_neg fun h => hlimit h.2]
    · rw [if_pos hfits, if_neg fun h => hfits h.1]
  · rw [if_neg hpast, subU64, Tx.bind_of_error]
    rw [Tx.demand_bind, if_neg hpast]

lemma outcome_eq {s : Spend} : e.outcome s =
    if (e.loadUserRecord s.time).1.lastResetTime ≤ s.time then
      if FitsI128 ((e.turned s.time).accumulatedAmount + s.amount) ∧
          (e.turned s.time).accumulatedAmount + s.amount ≤ dailyMaxLimit then .ok e.volume
      else .error (.err .limitExceeded)
    else .error .trap := by
  rw [outcome, accrue_eq, turned_volume]
  split_ifs
  · rfl
  · rfl
  · rfl

lemma accrues_iff_outcome {s : Spend} : e.accrues s = true ↔ (e.outcome s).toBool = true := by
  rw [accrues, Tx.succeeds, outcome]
  cases accrue { timestamp := s.time } s.amount e with
  | error _ => rfl
  | ok _ => rfl

lemma accrual_of_accrues {s : Spend} (h : e.accrues s = true) :
    accrual s e = e.charged s.time s.amount := by
  obtain ⟨v, hv⟩ := Tx.succeeds_iff.mp h
  rw [accrue_eq] at hv
  split_ifs at hv
  exact (Prod.mk.inj (Except.ok.inj hv)).2.symm

lemma outcome_congr {s : Spend} (hpast : (f.loadUserRecord s.time).1.lastResetTime ≤ s.time ↔
      (e.loadUserRecord s.time).1.lastResetTime ≤ s.time)
    (haccumulated : (f.turned s.time).accumulatedAmount = (e.turned s.time).accumulatedAmount)
    (hvolume : f.volume = e.volume) : f.outcome s = e.outcome s := by
  rw [outcome_eq, outcome_eq, haccumulated, hvolume]
  simp only [hpast]

lemma accrues_congr {s : Spend} (h : f.outcome s = e.outcome s) : f.accrues s = e.accrues s := by
  rw [Bool.eq_iff_iff, accrues_iff_outcome, accrues_iff_outcome, h]

lemma record_congr {s : Spend} (hturned : f.turned s.time = e.turned s.time)
    (hf : f.accrues s = true) (he : e.accrues s = true) :
    (accrual s f).userRecord = (accrual s e).userRecord := by
  rw [accrual_of_accrues hf, accrual_of_accrues he, charged_record, charged_record, hturned]

/-- Entries from which the same record is read at any time. -/
def Alike (e f : UserEntries) : Prop := ∀ now, (f.loadUserRecord now).1 = (e.loadUserRecord now).1

lemma Alike.turned (h : Alike e f) : f.turned now = e.turned now := by
  rw [UserEntries.turned, UserEntries.turned, h]

lemma Alike.outcome {s : Spend} (h : Alike e f) : f.outcome s = e.outcome s := by
  apply outcome_congr
  · rw [h]
  · rw [h.turned]
  · rw [← loadUserRecord_volume f s.time, h, loadUserRecord_volume]

lemma alike_of_record {packed : BytesN 72} (he : e.userRecord = some packed)
    (hf : f.userRecord = some packed) : Alike e f := by
  intro now
  simp only [loadUserRecord, he, hf]

lemma accrual_record {s : Spend} (h : e.accrues s = true) :
    ∃ packed, (accrual s e).userRecord = some packed := by
  rw [accrual_of_accrues h, charged_record]
  exact ⟨_, rfl⟩

def outcomes (e : UserEntries) (attempts : List Spend) : List (Except (Failure Error) ℤ) :=
  trace accrual (fun e s => [e.outcome s]) e attempts

lemma outcomes_cons (s : Spend) (attempts : List Spend) :
    e.outcomes (s :: attempts) = e.outcome s :: (accrual s e).outcomes attempts := rfl

lemma accrued_cons_of_accrues {s : Spend} {attempts : List Spend} (h : e.accrues s = true) :
    accrued e (s :: attempts) = s :: accrued (accrual s e) attempts := by
  rw [accrued, trace, if_pos h]
  rfl

lemma accrued_cons_of_fails {s : Spend} {attempts : List Spend} (h : e.accrues s = false) :
    accrued e (s :: attempts) = accrued e attempts := by
  have hsame : accrual s e = e := Tx.commit_of_fails h
  rw [accrued, trace, hsame, h]
  rfl

lemma Alike.run (h : Alike e f) (attempts : List Spend) : f.outcomes attempts = e.outcomes attempts ∧
    (f.userRecord = e.userRecord ∨ accrued e attempts ≠ [] →
      (run accrual f attempts).userRecord = (run accrual e attempts).userRecord) := by
  induction attempts generalizing e f with
  | nil => exact ⟨rfl, fun hsame => hsame.resolve_right (not_not.mpr rfl)⟩
  | cons s attempts ih =>
    have houtcome := h.outcome (s := s)
    have haccrues := accrues_congr houtcome
    rw [outcomes_cons, outcomes_cons, houtcome, run_cons, run_cons]
    cases he : e.accrues s with
    | true =>
      have hrecord := record_congr h.turned (haccrues.trans he) he
      obtain ⟨packed, hpacked⟩ := accrual_record he
      obtain ⟨hrest, hfinal⟩ := ih (alike_of_record hpacked (hrecord.trans hpacked))
      exact ⟨by rw [hrest], fun _ => hfinal (.inl hrecord)⟩
    | false =>
      have hsame : accrual s e = e := Tx.commit_of_fails he
      have hsame' : accrual s f = f := Tx.commit_of_fails (haccrues.trans he)
      obtain ⟨hrest, hfinal⟩ := ih h
      rw [hsame, hsame', accrued_cons_of_fails he]
      exact ⟨by rw [hrest], hfinal⟩

end Accruals

section Migration

def migrated (e : UserEntries) (now : ℕ) : UserEntries :=
  { userRecord := some (e.userRecord.getD (packUserRecord (e.loadLegacyRecord now).1)) }

/-- All that is stored is a volume. -/
structure VolumeOnly (e : UserEntries) : Prop where
  record : e.userRecord = none
  spending : e.userSpending = none
  volume : e.volume ≠ 0

lemma ofBytes_le {b : Bytes} (hb : b.length = 8) : ofBytes b ≤ maxU64 := by
  have hlt := ofBytes_lt b
  rw [hb] at hlt
  exact Nat.le_sub_one_of_lt hlt

lemma fits_ofBytesSigned {b : Bytes} (hb : b.length = 16) : FitsI128 (ofBytesSigned 16 b) :=
  fits_iff_bytes.mpr (ofBytesSigned_bounds hb)

/-- A record whose numbers can be packed. -/
structure Packable (record : UserRecord) : Prop where
  time : record.lastResetTime ≤ maxU64
  accumulated : FitsI128 record.accumulatedAmount
  volume : FitsI128 record.volume

lemma Packable.unpack {record : UserRecord} (h : Packable record) :
    unpackUserRecord (packUserRecord record) = record := unpack_pack h.time h.accumulated h.volume

lemma packable_unpack (packed : BytesN 72) : Packable (unpackUserRecord packed) :=
  ⟨ofBytes_le (by simp [packed.property]), fits_ofBytesSigned (by simp [packed.property]),
    unpack_volume_fits packed⟩

lemma packable_legacy (hnow : now ≤ maxU64) : Packable (e.loadLegacyRecord now).1 := by
  have hvolume : FitsI128 ((e.userVolume.map Subtype.val).getD 0) := by
    cases hv : e.userVolume with
    | none => simpa using fitsI128_zero
    | some v => simpa using v.property
  cases hs : e.userSpending with
  | none => exact ⟨by simpa [loadLegacyRecord, hs] using hnow,
      by simpa [loadLegacyRecord, hs] using fitsI128_zero, hvolume⟩
  | some packed =>
    have htime := ofBytes_le (b := packed.val.take 8) (by simp [packed.property])
    have hspent := fits_ofBytesSigned (b := packed.val.drop 8) (by simp [packed.property])
    exact ⟨by simpa [loadLegacyRecord, hs, unpackLegacySpending] using htime,
      by simpa [loadLegacyRecord, hs, unpackLegacySpending] using hspent, hvolume⟩

lemma packable_load (hnow : now ≤ maxU64) : Packable (e.loadUserRecord now).1 := by
  cases hr : e.userRecord with
  | none => simpa only [loadUserRecord, hr] using packable_legacy hnow
  | some packed => simpa only [loadUserRecord, hr] using packable_unpack packed

lemma load_migrated (hnow : now ≤ maxU64) :
    ((e.migrated now).loadUserRecord now).1 = (e.loadUserRecord now).1 := by
  cases hr : e.userRecord with
  | none => simpa only [loadUserRecord, migrated, hr, Option.getD_none] using (packable_legacy hnow).unpack
  | some packed => simp only [loadUserRecord, migrated, hr, Option.getD_some]

lemma alike_migrated (hnow : now ≤ maxU64) (hfound : (e.loadLegacyRecord now).2 = true)
    (hanchored : ¬ VolumeOnly e) : Alike e (e.migrated now) := by
  intro t
  cases hr : e.userRecord with
  | some packed => simp only [loadUserRecord, migrated, hr, Option.getD_some]
  | none =>
    cases hs : e.userSpending with
    | some packed =>
      have hlegacy : e.loadLegacyRecord now = e.loadLegacyRecord t := by
        simp only [loadLegacyRecord, hs, Option.map_some, Option.getD_some]
      simp only [loadUserRecord, migrated, hr, Option.getD_none]
      rw [(packable_legacy hnow).unpack, hlegacy]
    | none =>
      have hvolume : e.volume ≠ 0 := by
        simpa [loadLegacyRecord, hs, volume, hr] using hfound
      exact absurd ⟨hr, hs, hvolume⟩ hanchored

namespace VolumeOnly

lemma load (h : VolumeOnly e) : (e.loadUserRecord t).1 = ⟨t, 0, e.volume, 0⟩ := by
  simp only [loadUserRecord, loadLegacyRecord, UserEntries.volume, h.record, h.spending,
    Option.map_none, Option.getD_none]

lemma load_migrated (h : VolumeOnly e) (hnow : now ≤ maxU64) :
    ((e.migrated now).loadUserRecord t).1 = ⟨now, 0, e.volume, 0⟩ := by
  have hload : (e.loadLegacyRecord now).1 = ⟨now, 0, e.volume, 0⟩ := by
    rw [← h.load, loadUserRecord, h.record]
  simp only [loadUserRecord, migrated, h.record, Option.getD_none]
  rw [(packable_legacy hnow).unpack, hload]

lemma turned (h : VolumeOnly e) : e.turned t = ⟨t, 0, e.volume, 0⟩ := by
  rw [UserEntries.turned, h.load, ite_self]

lemma turned_migrated (h : VolumeOnly e) (hnow : now ≤ maxU64) : (e.migrated now).turned t =
    ⟨if secondsIn24h ≤ t - now then t else now, 0, e.volume, 0⟩ := by
  rw [UserEntries.turned, h.load_migrated hnow]
  split
  · rfl
  · rfl

lemma volume_migrated (h : VolumeOnly e) (hnow : now ≤ maxU64) :
    (e.migrated now).volume = e.volume := by
  rw [← loadUserRecord_volume _ now, h.load_migrated hnow]

lemma outcome_migrated {s : Spend} (h : VolumeOnly e) (hnow : now ≤ maxU64) (hlater : now ≤ s.time) :
    (e.migrated now).outcome s = e.outcome s := by
  apply outcome_congr
  · rw [h.load_migrated hnow, h.load]
    exact iff_of_true hlater le_rfl
  · rw [h.turned_migrated hnow, h.turned]
  · exact h.volume_migrated hnow

/-- An accrual at the time of the migration, or a day after it at the earliest, opens its own
window. -/
lemma turned_same (h : VolumeOnly e) (hnow : now ≤ maxU64)
    (haway : t = now ∨ now + secondsIn24h ≤ t) : (e.migrated now).turned t = e.turned t := by
  have hstart : (if secondsIn24h ≤ t - now then t else now) = t := by
    rcases haway with rfl | haway
    · exact ite_self _
    · rw [if_pos (Nat.le_sub_of_add_le' haway)]
  rw [h.turned_migrated hnow, h.turned, hstart]

lemma neutral {attempts : List Spend} (h : VolumeOnly e) (hnow : now ≤ maxU64)
    (hlater : ∀ s ∈ attempts, now ≤ s.time)
    (hfirst : ∀ s ∈ (accrued e attempts).head?, s.time = now ∨ now + secondsIn24h ≤ s.time) :
    (e.migrated now).outcomes attempts = e.outcomes attempts ∧ (accrued e attempts ≠ [] →
      (run accrual (e.migrated now) attempts).userRecord = (run accrual e attempts).userRecord) := by
  induction attempts with
  | nil => exact ⟨rfl, fun hnone => absurd rfl hnone⟩
  | cons s attempts ih =>
    obtain ⟨hs, hrest⟩ := List.forall_mem_cons.mp hlater
    have houtcome := h.outcome_migrated hnow hs
    have haccrues := accrues_congr houtcome
    rw [outcomes_cons, outcomes_cons, houtcome, run_cons, run_cons]
    cases he : e.accrues s with
    | true =>
      rw [accrued_cons_of_accrues he] at hfirst
      have hturned := h.turned_same hnow (hfirst s rfl)
      have hrecord := record_congr hturned (haccrues.trans he) he
      obtain ⟨packed, hpacked⟩ := accrual_record he
      obtain ⟨htail, hfinal⟩ :=
        (alike_of_record hpacked (hrecord.trans hpacked)).run attempts
      exact ⟨by rw [htail], fun _ => hfinal (.inl hrecord)⟩
    | false =>
      have hsame : accrual s e = e := Tx.commit_of_fails he
      have hsame' : accrual s (e.migrated now) = e.migrated now :=
        Tx.commit_of_fails (haccrues.trans he)
      rw [accrued_cons_of_fails he] at hfirst
      obtain ⟨htail, hfinal⟩ := ih hrest hfirst
      rw [hsame, hsame', accrued_cons_of_fails he]
      exact ⟨by rw [htail], hfinal⟩

/-- In between, the record goes on with the window of the migration. -/
lemma record_differs {s : Spend} (h : VolumeOnly e) (hnow : now ≤ maxU64) (htime : s.time ≤ maxU64)
    (hlater : now < s.time) (hsoon : s.time < now + secondsIn24h) (he : e.accrues s = true) :
    (accrual s (e.migrated now)).userRecord ≠ (accrual s e).userRecord := by
  have houtcome := h.outcome_migrated hnow hlater.le
  have hf : (e.migrated now).accrues s = true := (accrues_congr houtcome).trans he
  have hopen : ¬ secondsIn24h ≤ s.time - now := by omega
  have hfits : FitsI128 (0 + s.amount) := by
    obtain ⟨v, hv⟩ := Tx.succeeds_iff.mp he
    rw [accrue_eq, h.turned] at hv
    split_ifs at hv with _ hwithin
    exact hwithin.1
  have hpackable (start : ℕ) (hstart : start ≤ maxU64) :
      Packable (UserRecord.charge ⟨start, 0, e.volume, 0⟩ s.amount) :=
    ⟨hstart, hfits, saturateI128_fits _⟩
  rw [accrual_of_accrues hf, accrual_of_accrues he, charged_record, charged_record, h.turned,
    h.turned_migrated hnow, if_neg hopen]
  intro hsame
  have hunpacked := congrArg unpackUserRecord (Option.some.inj hsame)
  rw [(hpackable now hnow).unpack, (hpackable s.time htime).unpack] at hunpacked
  exact hlater.ne (congrArg UserRecord.lastResetTime hunpacked)

end VolumeOnly

end Migration

end UserEntries

namespace UserStore

variable {s t : UserStore} {env : Env} {user v : Address} {bit : Fin 256} {found val : Bool}

lemma entries_setEntries (user v : Address) (e : UserEntries) :
    (s.setEntries user e).entries v = if v = user then e else s.entries v :=
  Function.update_apply _ _ _ _

lemma migrateUserRecord_eq (env : Env) (user : Address) (s : UserStore) :
    migrateUserRecord env user s =
      if ((s.entries user).loadLegacyRecord env.timestamp).2 = true then
        .ok (true, { s.setEntries user ((s.entries user).migrated env.timestamp) with
          migrated := (user, ((s.entries user).loadLegacyRecord env.timestamp).1.volume) ::
            s.migrated })
      else .ok (false, s) := by
  rw [migrateUserRecord, Tx.read_bind, Tx.read_bind]
  cases hfound : ((s.entries user).loadLegacyRecord env.timestamp).2 with
  | false => rfl
  | true =>
    simp only [Bool.true_eq_false, if_false, if_true, UserEntries.migrated]
    cases hr : (s.entries user).userRecord with
    | none =>
      simp only [Option.isSome_none, Tx.whenever, if_true, Tx.update_bind, setUserRecord,
        dropLegacyRecord, setEntries, Function.update_self, Function.update_idem, Option.getD_none]
      rfl
    | some packed =>
      simp only [Option.isSome_some, Bool.true_eq_false, Tx.whenever, if_false, Tx.pure_bind,
        Tx.update_bind, dropLegacyRecord, setEntries, hr, Option.getD_some]
      rfl

/-- A migration from `s` to `t` shows in no record, no flag and no later accrual. -/
structure Neutral (env : Env) (user : Address) (s t : UserStore) (found : Bool) : Prop where
  records : ∀ v, t.getUserRecord env v = s.getUserRecord env v
  flags : ∀ v bit, t.userHasFlag v bit = s.userHasFlag v bit
  others : ∀ v, v ≠ user → t.entries v = s.entries v
  idle : found = false → t = s
  cleared : found = true → (t.entries user).userSpending = none ∧ (t.entries user).userVolume = none ∧
    ∀ later, migrateUserRecord later user t = .ok (false, t)
  accruals : ∀ attempts : List Spend, (∀ a ∈ attempts, env.timestamp ≤ a.time) →
    ((s.entries user).VolumeOnly → ∀ a ∈ (accrued (s.entries user) attempts).head?,
      a.time = env.timestamp ∨ env.timestamp + secondsIn24h ≤ a.time) →
    (t.entries user).outcomes attempts = (s.entries user).outcomes attempts ∧
      (accrued (s.entries user) attempts ≠ [] →
        (run accrual (t.entries user) attempts).userRecord =
          (run accrual (s.entries user) attempts).userRecord)
  window : (s.entries user).VolumeOnly → ∀ a : Spend, a.time ≤ maxU64 → env.timestamp < a.time →
    a.time < env.timestamp + secondsIn24h → (s.entries user).accrues a = true →
    (t.entries user).outcome a = (s.entries user).outcome a ∧
      (accrual a (t.entries user)).userRecord ≠ (accrual a (s.entries user)).userRecord

lemma userHasFlag_legacy {e : UserEntries} (hr : e.userRecord = none) (now : ℕ) :
    (e.loadUserRecord now).1.flags = 0 := by
  simp only [UserEntries.loadUserRecord, hr, UserEntries.loadLegacyRecord]

lemma userHasFlag_of_record {packed : BytesN 72} (h : (s.entries v).userRecord = some packed) :
    s.userHasFlag v bit = flagGet (unpackUserRecord packed).flags bit := by
  rw [userHasFlag, h]

/-- Whether there is a record or not, the flags are those that would be read with it. -/
lemma userHasFlag_eq (now : ℕ) :
    s.userHasFlag v bit = flagGet ((s.entries v).loadUserRecord now).1.flags bit := by
  cases hr : (s.entries v).userRecord with
  | none =>
    rw [userHasFlag_legacy hr, userHasFlag, hr]
    exact (BitVec.getLsbD_zero).symm
  | some packed =>
    rw [userHasFlag_of_record hr, UserEntries.loadUserRecord, hr]

lemma neutral_idle (hlost : ((s.entries user).loadLegacyRecord env.timestamp).2 = false) :
    Neutral env user s s false := by
  constructor
  · intro v
    rfl
  · intro v bit
    rfl
  · intro v _
    rfl
  · intro _
    rfl
  · rintro ⟨⟩
  · intro attempts _ _
    exact ⟨rfl, fun _ => rfl⟩
  · intro honly
    have hvolume := honly.volume
    simp only [UserEntries.volume, honly.record] at hvolume
    simp only [UserEntries.loadLegacyRecord, honly.spending, hvolume, Option.map_none,
      Option.isSome_none, Bool.false_or, ne_eq, not_false_eq_true, decide_true] at hlost
    cases hlost

lemma neutral_migrated (htime : env.timestamp ≤ maxU64)
    (hfound : ((s.entries user).loadLegacyRecord env.timestamp).2 = true)
    (hentries : ∀ v, t.entries v =
      if v = user then (s.entries user).migrated env.timestamp else s.entries v) :
    Neutral env user s t true := by
  have huser : t.entries user = (s.entries user).migrated env.timestamp := by
    rw [hentries, if_pos rfl]
  have hother (v : Address) (hv : v ≠ user) : t.entries v = s.entries v := by
    rw [hentries, if_neg hv]
  have hload (v : Address) : ((t.entries v).loadUserRecord env.timestamp).1 =
      ((s.entries v).loadUserRecord env.timestamp).1 := by
    by_cases hv : v = user
    · rw [hv, huser, UserEntries.load_migrated htime]
    · rw [hother v hv]
  constructor
  · exact hload
  · intro v bit
    rw [userHasFlag_eq env.timestamp, userHasFlag_eq env.timestamp, hload]
  · exact hother
  · rintro ⟨⟩
  · intro _
    rw [huser]
    refine ⟨rfl, rfl, fun later => ?_⟩
    rw [migrateUserRecord_eq, huser]
    rfl
  · intro attempts hlater hfirst
    rw [huser]
    by_cases honly : (s.entries user).VolumeOnly
    · exact honly.neutral htime hlater (hfirst honly)
    · obtain ⟨hsame, hrecord⟩ :=
        (UserEntries.alike_migrated htime hfound honly).run attempts
      exact ⟨hsame, fun hsome => hrecord (.inr hsome)⟩
  · intro honly a hmax hlater hsoon haccrues
    rw [huser]
    exact ⟨honly.outcome_migrated htime hlater.le,
      honly.record_differs htime hmax hlater hsoon haccrues⟩

lemma accumulated_eq (e : UserEntries) (now later : ℕ) :
    (e.loadUserRecord later).1.accumulatedAmount = (e.loadUserRecord now).1.accumulatedAmount := by
  cases hr : e.userRecord with
  | some packed => simp only [UserEntries.loadUserRecord, hr]
  | none =>
    cases hs : e.userSpending with
    | none => simp [UserEntries.loadUserRecord, UserEntries.loadLegacyRecord, hr, hs]
    | some packed => simp [UserEntries.loadUserRecord, UserEntries.loadLegacyRecord, hr, hs]

lemma userSetFlag_counts (htime : env.timestamp ≤ maxU64)
    (h : userSetFlag env user bit val s = .ok ((), t)) (later : Env) (v : Address) :
    (t.getUserRecord later v).accumulatedAmount = (s.getUserRecord later v).accumulatedAmount ∧
      (t.getUserRecord later v).volume = (s.getUserRecord later v).volume := by
  obtain rfl := Tx.update_ok.mp h
  by_cases hv : v = user
  · subst hv
    obtain ⟨hstart, haccumulated, hvolume⟩ :=
      UserEntries.packable_load (e := s.entries v) htime
    have hpackable : UserEntries.Packable { ((s.entries v).loadUserRecord env.timestamp).1 with
        flags := flagSet ((s.entries v).loadUserRecord env.timestamp).1.flags bit val } :=
      ⟨hstart, haccumulated, hvolume⟩
    simp only [getUserRecord, setUserRecord, entries_setEntries, if_true]
    rw [UserEntries.loadUserRecord]
    simp only [hpackable.unpack]
    exact ⟨accumulated_eq _ _ _, by
      rw [UserEntries.loadUserRecord_volume, UserEntries.loadUserRecord_volume]⟩
  · simp only [getUserRecord, setUserRecord, entries_setEntries, if_neg hv, and_self]

/-- The store holds what the router's traffic says of every user. -/
def Represents (s : UserStore) (t : Traffic) : Prop := ∀ v, UserEntries.Represents v (s.entries v) t

lemma Represents.legacy {t : Traffic} (h : Represents s t) (now : ℕ) :
    (s.entries user).loadLegacyRecord now = t.loadLegacyRecord user now := by
  simp only [UserEntries.loadLegacyRecord, Traffic.loadLegacyRecord, (h user).spending,
    (h user).volume]

lemma Represents.setUserRecord {t : Traffic} {record : UserRecord} (h : Represents s t)
    (hpackable : UserEntries.Packable record) :
    Represents (s.setUserRecord user record) (t.setUserRecord user record) := by
  intro v
  rw [UserStore.setUserRecord, entries_setEntries]
  by_cases hv : v = user
  · rw [if_pos hv, hv]
    exact (h user).setUserRecord hpackable.unpack
  · rw [if_neg hv]
    have hrecord : (t.setUserRecord user record).userRecord v = t.userRecord v :=
      Function.update_of_ne hv _ _
    exact ⟨hrecord.trans (h v).record, (h v).spending, (h v).volume⟩

lemma Represents.dropLegacyRecord {t : Traffic} (h : Represents s t) :
    Represents (s.dropLegacyRecord user) (t.dropLegacyRecord user) := by
  intro v
  rw [UserStore.dropLegacyRecord, entries_setEntries]
  by_cases hv : v = user
  · rw [if_pos hv, hv]
    exact (h user).dropLegacyRecord
  · rw [if_neg hv]
    have hspending : (t.dropLegacyRecord user).userSpending v = t.userSpending v :=
      Function.update_of_ne hv _ _
    have hvolume : (t.dropLegacyRecord user).userVolume v = t.userVolume v :=
      Function.update_of_ne hv _ _
    exact ⟨(h v).record, hspending.trans (h v).spending, hvolume.trans (h v).volume⟩

/-- The store does what the router's migration does with the records. -/
theorem migrate_refines (htime : env.timestamp ≤ maxU64) (user : Address) :
    Tx.Twin Represents (migrateUserRecord env user) (Router.migrateUserRecord env user) := by
  intro s t h
  have hpackable : UserEntries.Packable (t.loadLegacyRecord user env.timestamp).1 := by
    rw [← h.legacy]
    exact UserEntries.packable_legacy htime
  have hpacked : (s.entries user).userRecord.isSome = (t.userRecord user).isSome := by
    rw [(h user).record, Option.isSome_map]
  rw [migrateUserRecord, Router.migrateUserRecord, Tx.read_bind, Tx.read_bind, Tx.read_bind,
    h.legacy, hpacked]
  split
  · exact Tx.Twin.pure _ s t h
  · rw [Tx.read_bind]
    have hwrite : Tx.Twin Represents
        (Tx.whenever ((t.userRecord user).isSome = false) (Tx.update fun s =>
          s.setUserRecord user (t.loadLegacyRecord user env.timestamp).1))
        (Tx.whenever ((t.userRecord user).isSome = false) (Tx.update fun r =>
          r.setUserRecord user (t.loadLegacyRecord user env.timestamp).1) : Routing Unit) :=
      .whenever (.update fun _ _ h => h.setUserRecord hpackable)
    rcases hwrite s t h with ⟨failure, hs, ht⟩ | ⟨u, s', t', hs, ht, h'⟩
    · rw [Tx.bind_of_error hs, Tx.bind_of_error ht]
      exact .inl ⟨failure, rfl, rfl⟩
    · rw [Tx.bind_of_ok hs, Tx.bind_of_ok ht]
      exact .inr ⟨true, _, _, rfl, rfl, h'.dropLegacyRecord⟩

end UserStore

section Examples

/-- The second user holds an old volume of five and nothing else. -/
def volumeOnly : UserStore :=
  { entries := fun v => if v = ⟨2⟩ then { userVolume := some ⟨5, fitsI128_five⟩ } else {} }

def spentOut : List Spend := [⟨200, dailyMaxLimit⟩, ⟨86500, 5⟩]

end Examples

end StellarTags.Router
