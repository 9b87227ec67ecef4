import Mathlib.Data.List.Nodup
import StellarTags.Library.Approvals
import StellarTags.Middleware.Idempotency

/-! How often the handler of an idempotency key succeeds. -/

namespace StellarTags.Middleware.Idempotency

open Library Library.Runs Platform

section Condition

/-- The request has neither reached the handler nor been answered. -/
def Phase.Undecided : Phase → Prop
  | locking .. | unlocking .. | checking .. | waiting _ => True
  | _ => False

/-- A key's handler succeeds once, and who comes later waits, is in conflict, or gets its response. -/
structure OnlyOnce (w : World) : Prop where
  once : (w.successes.map Success.key).Nodup
  later : ∀ success ∈ w.successes, ∀ i call, success.arrived ≤ i → w.calls[i]? = some call →
    call.cacheKey = success.key →
      call.phase.Undecided ∨ (∃ message, call.phase = .answered (.rejected (conflict message))) ∨
        call.fingerprint = success.fingerprint ∧ ∃ response, success.response = some response ∧
          call.phase = .answered (.replayed response)

/-- The handler has succeeded, and has not given its response to `res.send`. -/
def Phase.unsent : Phase → Bool
  | ended status => isSuccess status
  | _ => false

/-- A handler whose key was released under it does not succeed any more, and one that succeeds leaves
its response to `res.send`, or at least the connection open. -/
def Attended (w : World) (move : Move) : Prop :=
  match move with
  | .send i ⟨status, _, _⟩ | .finish i status =>
    isSuccess status → ∀ call ∈ w.calls[i]?, call.phase = .handling → call.abandoned = false
  | .close i => ∀ call ∈ w.calls[i]?, call.phase.unsent = false
  | _ => True

instance (w : World) (move : Move) : Decidable (Attended w move) := by
  cases move <;> dsimp only [Attended] <;> infer_instance

end Condition

section Invariant

variable (config : Config) (w : World)

/-- What is complete is the response of a success. -/
def Known (key : String) (record : Record) : Prop :=
  ∀ fingerprint response, record = .complete fingerprint response → ∃ success ∈ w.successes,
    success.key = key ∧ success.fingerprint = fingerprint ∧ success.response = some response

def Claimed (i : ℕ) (call : Call) : Prop :=
  match call.phase with
  | .locking _ todo locked => todo.Nodup ∧ todo ⊆ config.members ∧ locked.Nodup ∧
    ∀ member ∈ locked, member ∈ config.members ∧ member ∉ todo ∧
      (w.stores member).get call.cacheKey = some (call.pending i)
  | .checking _ _ found => ∀ answer ∈ found, Known w call.cacheKey answer.2
  | .handling => call.abandoned = false →
    Majority config.members fun member => (w.stores member).get call.cacheKey = some (call.pending i)
  | .completing response _ _ => ∃ success ∈ w.successes, success.call = i ∧ success.key = call.cacheKey ∧
    success.response = some response
  | _ => True

structure Holds (i : ℕ) (call : Call) : Prop where
  quiet : call.abandoned = false → call.closing = []
  early : call.phase.Undecided → call.abandoned = false
  claimed : Claimed config w i call

/-- The store has the record of a success, or of its request still. -/
def Backs (success : Success) (member : ℕ) : Prop :=
  (w.stores member).get success.key = some (.pending success.fingerprint success.call) ∨
    ∃ response, success.response = some response ∧
      (w.stores member).get success.key = some (.complete success.fingerprint response)

/-- A handler that succeeded does so no more, and does not release the key. -/
def Phase.Settled : Phase → Prop
  | completing .. | answered _ => True
  | ended status => isSuccess status
  | _ => False

/-- What a request can be that came after a success, which the stores of `held` back. -/
def Late (success : Success) (held : List ℕ) (call : Call) : Prop :=
  match call.phase with
  | .locking .. | .unlocking .. | .waiting _ => True
  | .checking _ todo found => ∀ member ∈ held, member ∈ todo ∨ ∃ record, (member, record) ∈ found
  | .answered outcome => (∃ message, outcome = .rejected (conflict message)) ∨
    call.fingerprint = success.fingerprint ∧ ∃ response, success.response = some response ∧
      outcome = .replayed response
  | _ => False

structure Backed (success : Success) (held : List ℕ) : Prop where
  nodup : held.Nodup
  sub : held ⊆ config.members
  most : config.members.length / 2 + 1 ≤ held.length
  backs : ∀ member ∈ held, Backs w success member

structure Succeeded (success : Success) : Prop where
  arrived : success.call < success.arrived
  call : ∃ call, w.calls[success.call]? = some call ∧ call.cacheKey = success.key ∧
    call.fingerprint = success.fingerprint ∧ call.phase.Settled ∧ call.closing = []
  backed : ∃ held, Backed config w success held ∧ ∀ i call, success.arrived ≤ i →
    w.calls[i]? = some call → call.cacheKey = success.key → Late success held call

structure Sound : Prop where
  holds : ∀ i call, w.calls[i]? = some call → Holds config w i call
  known : ∀ member key record, (w.stores member).get key = some record → Known w key record
  once : (w.successes.map Success.key).Nodup
  succeeded : ∀ success ∈ w.successes, Succeeded config w success

end Invariant

section Steps

variable {config : Config} {w next : World} {i j : ℕ} {call other : Call} {success : Success}
  {held : List ℕ} {key : String} {record : Record}

lemma sound_init (config : Config) : Sound config {} where
  holds _ _ h := by cases h
  known _ _ _ h := by cases h
  once := List.nodup_nil
  succeeded _ h := by cases h

lemma getElem?_set_cases {calls : List Call} {later : Call} (hi : i < calls.length)
    (hother : (calls.set i later)[j]? = some other) :
    j = i ∧ other = later ∨ j ≠ i ∧ calls[j]? = some other := by
  by_cases hne : j = i
  · subst hne
    rw [List.getElem?_set_self hi] at hother
    exact .inl ⟨rfl, (Option.some.inj hother).symm⟩
  · rw [List.getElem?_set_ne (Ne.symm hne)] at hother
    exact .inr ⟨hne, hother⟩

lemma pending_ne (hne : j ≠ i) (call other : Call) : other.pending j ≠ call.pending i :=
  fun heq => hne (Record.pending.inj heq).2

/-- Whoever goes on leaves to the others what they have in the stores. -/
lemma Holds.mono (h : Holds config w j other) (hne : j ≠ i)
    (hkept : ∀ member key record, (w.stores member).get key = some record → record ≠ call.pending i →
      (next.stores member).get key = some record)
    (hsuccesses : w.successes ⊆ next.successes) : Holds config next j other := by
  refine ⟨h.quiet, h.early, ?_⟩
  have hclaimed := h.claimed
  unfold Claimed at hclaimed ⊢
  split at hclaimed
  · obtain ⟨htodo, hsub, hnodup, hlocked⟩ := hclaimed
    refine ⟨htodo, hsub, hnodup, fun member hmember => ?_⟩
    obtain ⟨hmembers, hdone, hget⟩ := hlocked member hmember
    exact ⟨hmembers, hdone, hkept _ _ _ hget (pending_ne hne call other)⟩
  · intro answer hanswer fingerprint response hcomplete
    obtain ⟨success, hmem, hsuccess⟩ := hclaimed answer hanswer fingerprint response hcomplete
    exact ⟨success, hsuccesses hmem, hsuccess⟩
  · exact fun habandoned => (hclaimed habandoned).mono fun member _ hmember =>
      hkept _ _ _ hmember (pending_ne hne call other)
  · obtain ⟨success, hmem, hsuccess⟩ := hclaimed
    exact ⟨success, hsuccesses hmem, hsuccess⟩
  · trivial

lemma Backs.mono {member : ℕ} (h : Backs w success member) (hne : success.call ≠ i)
    (hkept : ∀ member key record, (w.stores member).get key = some record → record ≠ call.pending i →
      (next.stores member).get key = some record) : Backs next success member := by
  obtain hpending | ⟨response, hresponse, hcomplete⟩ := h
  · exact .inl (hkept _ _ _ hpending fun heq => hne (Record.pending.inj heq).2)
  · exact .inr ⟨response, hresponse, hkept _ _ _ hcomplete fun heq => nomatch heq⟩

lemma Sound.goOn (h : Sound config w) (hcall : w.calls[i]? = some call) {later : Call}
    (hcalls : next.calls = w.calls.set i later) (hsuccesses : next.successes = w.successes)
    (hsame : later.cacheKey = call.cacheKey ∧ later.fingerprint = call.fingerprint)
    (hkept : ∀ member key record, (w.stores member).get key = some record → record ≠ call.pending i →
      (next.stores member).get key = some record)
    (hknown : ∀ member key record, (next.stores member).get key = some record → Known w key record)
    (hholds : Holds config next i later)
    (hsettled : ∀ success ∈ w.successes, success.call = i → call.phase.Settled → call.closing = [] →
      later.phase.Settled ∧ later.closing = [] ∧
        ∀ member, Backs w success member → Backs next success member)
    (hlate : ∀ success ∈ w.successes, ∀ held, Backed config w success held → success.arrived ≤ i →
      success.call ≠ i → call.cacheKey = success.key → Late success held call →
        Late success held later) : Sound config next := by
  have hlt : i < w.calls.length := (List.getElem?_eq_some_iff.mp hcall).1
  constructor
  · intro j other hother
    obtain ⟨rfl, rfl⟩ | ⟨hne, hother⟩ := getElem?_set_cases hlt (hcalls ▸ hother)
    · exact hholds
    · exact (h.holds j other hother).mono hne hkept fun success hmem => hsuccesses ▸ hmem
  · intro member key record hrecord fingerprint response hcomplete
    rw [hsuccesses]
    exact hknown member key record hrecord fingerprint response hcomplete
  · rw [hsuccesses]
    exact h.once
  · intro success hsuccess
    rw [hsuccesses] at hsuccess
    obtain ⟨harrived, ⟨mine, hmine, hkey, hfingerprint, hphase, hclosing⟩, held, hbacked, hafter⟩ :=
      h.succeeded success hsuccess
    refine ⟨harrived, ?_, held, ⟨hbacked.nodup, hbacked.sub, hbacked.most, ?_⟩, ?_⟩
    · by_cases hne : success.call = i
      · subst hne
        obtain rfl := Option.some.inj (hcall.symm.trans hmine)
        obtain ⟨hsettles, hquiet, -⟩ := hsettled success hsuccess rfl hphase hclosing
        refine ⟨later, ?_, hsame.1.trans hkey, hsame.2.trans hfingerprint, hsettles, hquiet⟩
        rw [hcalls, List.getElem?_set_self hlt]
      · refine ⟨mine, ?_, hkey, hfingerprint, hphase, hclosing⟩
        rw [hcalls, List.getElem?_set_ne (Ne.symm hne), hmine]
    · intro member hmember
      have hbacks := hbacked.backs member hmember
      by_cases hne : success.call = i
      · subst hne
        obtain rfl := Option.some.inj (hcall.symm.trans hmine)
        exact (hsettled success hsuccess rfl hphase hclosing).2.2 member hbacks
      · exact hbacks.mono hne hkept
    · intro j other hj hother hkeys
      obtain ⟨rfl, rfl⟩ | ⟨-, hother⟩ := getElem?_set_cases hlt (hcalls ▸ hother)
      · have hkeys := hsame.1.symm.trans hkeys
        exact hlate success hsuccess held hbacked hj (Nat.lt_of_lt_of_le harrived hj).ne hkeys
          (hafter j call hj hcall hkeys)
      · exact hafter j other hj hother hkeys

lemma Sound.outcome (h : Sound config w) (hsuccess : success ∈ w.successes)
    (hknown : Known w success.key record) (fingerprint : String) :
    (∃ message, record.outcome fingerprint = .rejected (conflict message)) ∨
      fingerprint = success.fingerprint ∧ ∃ response, success.response = some response ∧
        record.outcome fingerprint = .replayed response := by
  cases record with
  | pending saved token =>
    rw [Record.outcome]
    split_ifs
    · exact .inl ⟨_, rfl⟩
    · exact .inl ⟨_, rfl⟩
  | complete saved response =>
    obtain ⟨other, hother, hkey, rfl, hresponse⟩ := hknown saved response rfl
    obtain rfl := List.inj_on_of_nodup_map h.once hother hsuccess hkey
    rw [Record.outcome]
    split_ifs with hne
    · exact .inl ⟨_, rfl⟩
    · exact .inr ⟨(not_not.mp hne).symm, response, hresponse, rfl⟩

lemma mem_of_stored {found : List (ℕ × Record)} (h : config.stored found = some record) :
    ∃ member, (member, record) ∈ found := by
  obtain ⟨member, -, hmember⟩ := List.exists_of_findSome?_eq_some h
  obtain ⟨answer, hanswer, rfl⟩ := Option.map_eq_some_iff.mp hmember
  exact ⟨answer.1, List.mem_of_find?_eq_some hanswer⟩

lemma stored_ne_none {found : List (ℕ × Record)} {member : ℕ} (hmember : member ∈ config.members)
    (hfound : (member, record) ∈ found) : config.stored found ≠ none := by
  intro hnone
  have hmap := List.findSome?_eq_none_iff.mp hnone member hmember
  rw [Option.map_eq_none_iff, List.find?_eq_none] at hmap
  exact hmap _ hfound (decide_eq_true rfl)

/-- Only the request of a success can have a majority of the stores. -/
lemma Backed.pending (h : Backed config w success held) (call : Call)
    (hmost : Majority config.members fun member =>
      (w.stores member).get success.key = some (call.pending i)) : success.call = i := by
  have hbacks : Majority config.members (Backs w success) := ⟨held, h.nodup, h.sub, h.most, h.backs⟩
  obtain ⟨member, -, hpending | ⟨response, -, hcomplete⟩, hother⟩ := hbacks.exists_common hmost
  · rw [hpending] at hother
    exact (Record.pending.inj (Option.some.inj hother)).2
  · rw [hcomplete] at hother
    cases hother

lemma Backed.exists_mem (h : Backed config w success held) : ∃ member ∈ held, member ∈ config.members := by
  obtain ⟨member, hmember⟩ := List.exists_mem_of_length_pos (Nat.lt_of_lt_of_le (Nat.succ_pos _) h.most)
  exact ⟨member, hmember, h.sub hmember⟩

lemma Backs.get_ne_none {member : ℕ} (h : Backs w success member) :
    (w.stores member).get success.key ≠ none := by
  obtain hpending | ⟨response, -, hcomplete⟩ := h
  · simp [hpending]
  · simp [hcomplete]

end Steps

section Scripts

variable {store : Store} {key k : String} {pending record other : Record}

lemma get_releaseScript (h : store.get k = some other) (hne : other ≠ pending) :
    (releaseScript key pending store).get k = some other := by
  unfold releaseScript
  split_ifs with hheld
  · by_cases hk : k = key
    · subst hk
      exact absurd (Option.some.inj (h.symm.trans hheld)) hne
    · rwa [InsertionMap.get_delete, Function.update_of_ne hk]
  · exact h

lemma get_of_get_releaseScript (h : (releaseScript key pending store).get k = some other) :
    store.get k = some other := by
  unfold releaseScript at h
  split_ifs at h
  · by_cases hk : k = key
    · rw [InsertionMap.get_delete, hk, Function.update_self] at h
      cases h
    · rwa [InsertionMap.get_delete, Function.update_of_ne hk] at h
  · exact h

lemma get_completeScript (h : store.get k = some other) (hne : other ≠ pending) :
    (completeScript key pending record store).2.get k = some other := by
  unfold completeScript
  split_ifs with hheld
  · by_cases hk : k = key
    · subst hk
      exact absurd (Option.some.inj (h.symm.trans hheld)) hne
    · rwa [InsertionMap.get_set, Function.update_of_ne hk]
  · exact h

lemma get_of_get_completeScript (h : (completeScript key pending record store).2.get k = some other) :
    store.get k = some other ∨ k = key ∧ record = other := by
  unfold completeScript at h
  split_ifs at h
  · by_cases hk : k = key
    · rw [InsertionMap.get_set, hk, Function.update_self] at h
      exact .inr ⟨hk, Option.some.inj h⟩
    · rw [InsertionMap.get_set, Function.update_of_ne hk] at h
      exact .inl h
  · exact .inl h

lemma get_acquireInstanceLock (h : store.get k = some other) :
    (acquireInstanceLock key pending store).2.get k = some other := by
  unfold acquireInstanceLock
  split_ifs with hnone
  · by_cases hk : k = key
    · rw [hk, hnone] at h
      cases h
    · rwa [InsertionMap.get_set, Function.update_of_ne hk]
  · exact h

lemma get_of_get_acquireInstanceLock (h : (acquireInstanceLock key pending store).2.get k = some other) :
    store.get k = some other ∨ other = pending := by
  unfold acquireInstanceLock at h
  split_ifs at h
  · by_cases hk : k = key
    · rw [InsertionMap.get_set, hk, Function.update_self] at h
      exact .inr (Option.some.inj h).symm
    · rw [InsertionMap.get_set, Function.update_of_ne hk] at h
      exact .inl h
  · exact .inl h

end Scripts

section Commands

variable {config : Config} {w next : World} {i member attempt : ℕ} {call : Call} {store : Store}
  {phase : Phase} {success : Success} {held todo locked : List ℕ} {elapsed : ℚ} {response : Response}

lemma stores_setStore : (w.setStore member store).stores = Function.update w.stores member store := rfl

lemma kept_setStore {pending : Record}
    (hkept : ∀ k record, (w.stores member).get k = some record → record ≠ pending →
      store.get k = some record) (m : ℕ) (k : String) (record : Record)
    (h : (w.stores m).get k = some record) (hne : record ≠ pending) :
    ((w.setStore member store).stores m).get k = some record := by
  rw [stores_setStore]
  by_cases hm : m = member
  · subst hm
    rw [Function.update_self]
    exact hkept k record h hne
  · rwa [Function.update_of_ne hm]

lemma Sound.known_setStore (h : Sound config w)
    (hknown : ∀ k record, store.get k = some record → (w.stores member).get k = some record ∨ Known w k record)
    (m : ℕ) (k : String) (record : Record) (hrecord : ((w.setStore member store).stores m).get k = some record) :
    Known w k record := by
  rw [stores_setStore] at hrecord
  by_cases hm : m = member
  · subst hm
    rw [Function.update_self] at hrecord
    exact (hknown k record hrecord).elim (h.known m k record) id
  · rw [Function.update_of_ne hm] at hrecord
    exact h.known m k record hrecord

lemma Sound.command (h : Sound config w) (hcall : w.calls[i]? = some call)
    (hnext : next = (w.setStore member store).setCall i { call with phase })
    (hkept : ∀ k record, (w.stores member).get k = some record → record ≠ call.pending i →
      store.get k = some record)
    (hknown : ∀ k record, store.get k = some record → (w.stores member).get k = some record ∨ Known w k record)
    (hearly : phase.Undecided → call.phase.Undecided)
    (hclaimed : Claimed config next i { call with phase })
    (hsettled : ∀ success ∈ w.successes, success.call = i → call.phase.Settled →
      phase.Settled ∧ ∀ m, Backs w success m → Backs next success m)
    (hlate : ∀ success ∈ w.successes, ∀ held, Backed config w success held → success.call ≠ i →
      call.cacheKey = success.key → Late success held call → Late success held { call with phase }) :
    Sound config next := by
  have hholds := h.holds i call hcall
  subst hnext
  refine h.goOn hcall rfl rfl ⟨rfl, rfl⟩ (kept_setStore hkept) (h.known_setStore hknown)
    ⟨hholds.quiet, fun hphase => hholds.early (hearly hphase), hclaimed⟩ ?_ ?_
  · intro success hsuccess heq hphase hclosing
    obtain ⟨hsettles, hbacks⟩ := hsettled success hsuccess heq hphase
    exact ⟨hsettles, hclosing, hbacks⟩
  · intro success hsuccess held hbacked _ hne hkey hafter
    exact hlate success hsuccess held hbacked hne hkey hafter

lemma unlocked_cases (config : Config) (attempt : ℕ) (todo : List ℕ) :
    config.unlocked attempt todo = .unlocking attempt todo ∨
      config.unlocked attempt todo = .checking attempt config.members [] := by
  unfold Config.unlocked
  split_ifs
  · exact .inr rfl
  · exact .inl rfl

lemma claimed_unlocked (hphase : call.phase = config.unlocked attempt todo) : Claimed config w i call := by
  obtain heq | heq := unlocked_cases config attempt todo
  · simp [Claimed, hphase, heq]
  · simp [Claimed, hphase, heq]

lemma late_unlocked (hbacked : Backed config w success held) (hphase : call.phase = config.unlocked attempt todo) :
    Late success held call := by
  obtain heq | heq := unlocked_cases config attempt todo
  · simp [Late, hphase, heq]
  · rw [Late, hphase, heq]
    exact fun member hmember => .inl (hbacked.sub hmember)

lemma Sound.unlock (h : Sound config w) (hcall : w.calls[i]? = some call)
    (hphase : call.phase = .unlocking attempt todo) :
    Sound config ((w.setStore member (releaseScript call.cacheKey (call.pending i)
      (w.stores member))).setCall i { call with phase := config.unlocked attempt (todo.erase member) }) := by
  apply h.command hcall rfl
  · exact fun k record => get_releaseScript
  · exact fun k record hrecord => .inl (get_of_get_releaseScript hrecord)
  · simp [hphase, Phase.Undecided]
  · exact claimed_unlocked rfl
  · simp [hphase, Phase.Settled]
  · exact fun success _ held hbacked _ _ _ => late_unlocked hbacked rfl

lemma Sound.giveBack (h : Sound config w) (hcall : w.calls[i]? = some call)
    (hphase : call.phase = .releasing response todo) :
    Sound config ((w.setStore member (releaseScript call.cacheKey (call.pending i)
      (w.stores member))).setCall i { call with phase := released response (todo.erase member) }) := by
  apply h.command hcall rfl
  · exact fun k record => get_releaseScript
  · exact fun k record hrecord => .inl (get_of_get_releaseScript hrecord)
  · unfold released
    split_ifs <;> simp [Phase.Undecided]
  · unfold released
    split_ifs <;> trivial
  · simp [hphase, Phase.Settled]
  · simp [Late, hphase]

lemma locked_cases (config : Config) (attempt : ℕ) (todo locked : List ℕ) (elapsed : ℚ) :
    config.locked attempt todo locked elapsed = .locking attempt todo locked ∨
      config.locked attempt todo locked elapsed = .handling ∧ config.quorum ≤ locked.length ∨
        config.locked attempt todo locked elapsed = config.unlocked attempt locked := by
  unfold Config.locked
  split_ifs with htodo hmost
  · exact .inl rfl
  · exact .inr (.inl ⟨rfl, hmost.1⟩)
  · exact .inr (.inr rfl)

lemma claimed_lock (h : Claimed config w i call) (hphase : call.phase = .locking attempt todo locked)
    (hmember : member ∈ todo) {ok : Bool}
    (hacquire : acquireInstanceLock call.cacheKey (call.pending i) (w.stores member) = (ok, store)) :
    (if ok then locked ++ [member] else locked).Nodup ∧
      ∀ m ∈ (if ok then locked ++ [member] else locked), m ∈ config.members ∧ m ∉ todo.erase member ∧
        ((w.setStore member store).stores m).get call.cacheKey = some (call.pending i) := by
  rw [Claimed, hphase] at h
  obtain ⟨htodo, hsub, hnodup, hlocked⟩ := h
  have hold (m : ℕ) (hm : m ∈ locked) : m ∈ config.members ∧ m ∉ todo.erase member ∧
      ((w.setStore member store).stores m).get call.cacheKey = some (call.pending i) := by
    obtain ⟨hmembers, hdone, hget⟩ := hlocked m hm
    have hne : m ≠ member := fun heq => hdone (heq ▸ hmember)
    refine ⟨hmembers, fun hmem => hdone (List.mem_of_mem_erase hmem), ?_⟩
    rwa [stores_setStore, Function.update_of_ne hne]
  unfold acquireInstanceLock at hacquire
  split_ifs at hacquire
  · obtain ⟨rfl, rfl⟩ := Prod.mk.inj hacquire
    rw [if_pos rfl]
    constructor
    · rw [List.nodup_append]
      refine ⟨hnodup, List.nodup_singleton _, ?_⟩
      rintro m hm _ hlast rfl
      exact (hlocked m hm).2.1 (List.mem_singleton.mp hlast ▸ hmember)
    · intro m hm
      obtain hm | hlast := List.mem_append.mp hm
      · exact hold m hm
      · obtain rfl := List.mem_singleton.mp hlast
        refine ⟨hsub hmember, htodo.not_mem_erase, ?_⟩
        rw [stores_setStore, Function.update_self, InsertionMap.get_set, Function.update_self]
  · obtain ⟨rfl, rfl⟩ := Prod.mk.inj hacquire
    exact ⟨hnodup, hold⟩

lemma Sound.lock (h : Sound config w) (hcall : w.calls[i]? = some call)
    (hphase : call.phase = .locking attempt todo locked) (hmember : member ∈ todo) (elapsed : ℚ) {ok : Bool}
    (hacquire : acquireInstanceLock call.cacheKey (call.pending i) (w.stores member) = (ok, store)) :
    Sound config ((w.setStore member store).setCall i { call with
      phase := config.locked attempt (todo.erase member) (if ok then locked ++ [member] else locked)
        elapsed }) := by
  have hclaimed := (h.holds i call hcall).claimed
  obtain ⟨hnodup, hlocked⟩ := claimed_lock hclaimed hphase hmember hacquire
  rw [Claimed, hphase] at hclaimed
  obtain ⟨htodo, hsub, -, -⟩ := hclaimed
  generalize (if ok then locked ++ [member] else locked) = all at hnodup hlocked ⊢
  obtain rfl : (acquireInstanceLock call.cacheKey (call.pending i) (w.stores member)).2 = store := by
    rw [hacquire]
  have hmajority (hmost : config.quorum ≤ all.length) : Majority config.members fun m =>
      ((w.setStore member (acquireInstanceLock call.cacheKey (call.pending i)
        (w.stores member)).2).stores m).get call.cacheKey = some (call.pending i) :=
    ⟨all, hnodup, fun m hm => (hlocked m hm).1, hmost, fun m hm => (hlocked m hm).2.2⟩
  have hkept (k : String) (record : Record) (hget : (w.stores member).get k = some record)
      (_ : record ≠ call.pending i) :
      (acquireInstanceLock call.cacheKey (call.pending i) (w.stores member)).2.get k = some record :=
    get_acquireInstanceLock hget
  apply h.command hcall rfl hkept
  · intro k record hget
    refine (get_of_get_acquireInstanceLock hget).imp_right ?_
    rintro rfl fingerprint response ⟨⟩
  · simp [hphase, Phase.Undecided]
  · obtain heq | ⟨heq, hmost⟩ | heq := locked_cases config attempt (todo.erase member) all elapsed
    · simp only [Claimed, heq]
      exact ⟨htodo.erase _, fun m hm => hsub (List.mem_of_mem_erase hm), hnodup, hlocked⟩
    · simp only [Claimed, heq]
      exact fun _ => hmajority hmost
    · exact claimed_unlocked heq
  · simp [hphase, Phase.Settled]
  · intro success _ held hbacked hne hkey _
    obtain heq | ⟨heq, hmost⟩ | heq := locked_cases config attempt (todo.erase member) all elapsed
    · simp [Late, heq]
    · -- the stores that back the success are in no other majority
      have hnow : Backed config (w.setStore member (acquireInstanceLock call.cacheKey (call.pending i)
          (w.stores member)).2) success held :=
        ⟨hbacked.nodup, hbacked.sub, hbacked.most, fun m hm =>
          (hbacked.backs m hm).mono hne (kept_setStore hkept)⟩
      exact absurd (hnow.pending call (hkey ▸ hmajority hmost)) hne
    · exact late_unlocked hbacked heq

lemma checked_cases (config : Config) (fingerprint : String) (attempt : ℕ) (todo : List ℕ)
    (found : List (ℕ × Record)) :
    config.checked fingerprint attempt todo found = .checking attempt todo found ∨
      todo = [] ∧ (config.checked fingerprint attempt todo found = .waiting attempt ∨
        (∃ record, config.stored found = some record ∧
          config.checked fingerprint attempt todo found = .answered (record.outcome fingerprint)) ∨
        config.stored found = none ∧
          config.checked fingerprint attempt todo found = .answered (.rejected noProtection)) := by
  unfold Config.checked
  split_ifs with htodo
  · exact .inl rfl
  · refine .inr ⟨not_not.mp htodo, ?_⟩
    split
    · rename_i heq
      exact .inr (.inl ⟨_, heq, rfl⟩)
    · exact .inl rfl
  · refine .inr ⟨not_not.mp htodo, .inr ?_⟩
    split
    · rename_i heq
      exact .inl ⟨_, heq, rfl⟩
    · rename_i heq
      exact .inr ⟨heq, rfl⟩

lemma Sound.check (h : Sound config w) (hcall : w.calls[i]? = some call) {found : List (ℕ × Record)}
    (hphase : call.phase = .checking attempt todo found) :
    Sound config ((w.setStore member (w.stores member)).setCall i { call with
      phase := config.checked call.fingerprint attempt (todo.erase member)
        (found ++ (((w.stores member).get call.cacheKey).map fun record => (member, record)).toList) }) := by
  have hclaimed := (h.holds i call hcall).claimed
  rw [Claimed, hphase] at hclaimed
  have hfound (answer : ℕ × Record) (hanswer : answer ∈ found ++
      (((w.stores member).get call.cacheKey).map fun record => (member, record)).toList) :
      Known w call.cacheKey answer.2 := by
    obtain hold | hnew := List.mem_append.mp hanswer
    · exact hclaimed answer hold
    · obtain ⟨record, hrecord, rfl⟩ := Option.map_eq_some_iff.mp (Option.mem_toList.mp hnew)
      exact h.known member call.cacheKey record hrecord
  have hcases := checked_cases config call.fingerprint attempt (todo.erase member)
    (found ++ (((w.stores member).get call.cacheKey).map fun record => (member, record)).toList)
  apply h.command hcall rfl
  · exact fun k record hget _ => hget
  · exact fun k record hget => .inl hget
  · simp [hphase, Phase.Undecided]
  · obtain heq | ⟨-, heq | ⟨record, -, heq⟩ | ⟨-, heq⟩⟩ := hcases
    · simp only [Claimed, heq]
      exact hfound
    all_goals simp [Claimed, heq]
  · simp [hphase, Phase.Settled]
  · intro success hsuccess held hbacked _ hkey hafter
    rw [Late, hphase] at hafter
    have hcovered (m : ℕ) (hm : m ∈ held) : m ∈ todo.erase member ∨ ∃ record, (m, record) ∈ found ++
        (((w.stores member).get call.cacheKey).map fun record => (member, record)).toList := by
      obtain hleft | ⟨record, hrecord⟩ := hafter m hm
      · by_cases hne : m = member
        · subst hne
          obtain ⟨record, hrecord⟩ := Option.ne_none_iff_exists'.mp (hbacked.backs m hm).get_ne_none
          refine .inr ⟨record, List.mem_append_right _ ?_⟩
          rw [hkey, hrecord]
          exact List.mem_singleton_self _
        · exact .inl ((List.mem_erase_of_ne hne).mpr hleft)
      · exact .inr ⟨record, List.mem_append_left _ hrecord⟩
    obtain heq | ⟨hdone, heq | ⟨record, hstored, heq⟩ | ⟨hnone, heq⟩⟩ := hcases
    · simp only [Late, heq]
      exact hcovered
    · simp [Late, heq]
    · simp only [Late, heq]
      obtain ⟨m, hm⟩ := mem_of_stored hstored
      exact h.outcome hsuccess (hkey ▸ hfound _ hm) call.fingerprint
    · obtain ⟨m, hm, hmembers⟩ := hbacked.exists_mem
      obtain hleft | ⟨record, hrecord⟩ := hcovered m hm
      · rw [hdone] at hleft
        cases hleft
      · exact absurd hnone (stored_ne_none hmembers hrecord)

lemma completed_cases (config : Config) (response : Response) (todo : List ℕ) (saved : ℕ) :
    config.completed response todo saved = .completing response todo saved ∨
      ∃ outcome, config.completed response todo saved = .answered outcome := by
  unfold Config.completed
  split_ifs
  · exact .inl rfl
  · exact .inr ⟨_, rfl⟩
  · exact .inr ⟨_, rfl⟩

lemma Sound.eq_of_call (h : Sound config w) {other : Success} (hsuccess : success ∈ w.successes)
    (hother : other ∈ w.successes) (hsame : success.call = other.call) : success = other := by
  obtain ⟨mine, hmine, hkey, -⟩ := (h.succeeded success hsuccess).call
  obtain ⟨later, hlater, hkeys, -⟩ := (h.succeeded other hother).call
  rw [hsame, hlater] at hmine
  obtain rfl := Option.some.inj hmine
  exact List.inj_on_of_nodup_map h.once hsuccess hother (hkey.symm.trans hkeys)

lemma Sound.complete (h : Sound config w) (hcall : w.calls[i]? = some call) {saved count : ℕ}
    (hphase : call.phase = .completing response todo saved) {ok : Bool}
    (hcomplete : completeScript call.cacheKey (call.pending i) (.complete call.fingerprint response)
      (w.stores member) = (ok, store)) :
    Sound config ((w.setStore member store).setCall i { call with
      phase := config.completed response (todo.erase member) count }) := by
  have hclaimed := (h.holds i call hcall).claimed
  rw [Claimed, hphase] at hclaimed
  obtain ⟨mine, hmine, hnumber, hkey, hresponse⟩ := hclaimed
  have hfingerprint : mine.fingerprint = call.fingerprint := by
    obtain ⟨other, hother, -, hsame, -⟩ := (h.succeeded mine hmine).call
    rw [hnumber, hcall] at hother
    rw [← hsame, Option.some.inj hother]
  obtain rfl : (completeScript call.cacheKey (call.pending i) (.complete call.fingerprint response)
      (w.stores member)).2 = store := by rw [hcomplete]
  have hcases := completed_cases config response (todo.erase member) count
  have hkept (k : String) (record : Record) (hget : (w.stores member).get k = some record)
      (hne : record ≠ call.pending i) :
      (completeScript call.cacheKey (call.pending i) (.complete call.fingerprint response)
        (w.stores member)).2.get k = some record := get_completeScript hget hne
  apply h.command hcall rfl hkept
  · intro k record hget
    refine (get_of_get_completeScript hget).imp_right ?_
    rintro ⟨rfl, rfl⟩ fingerprint later heq
    obtain ⟨rfl, rfl⟩ := Record.complete.inj heq
    exact ⟨mine, hmine, hkey, hfingerprint, hresponse⟩
  · obtain heq | ⟨outcome, heq⟩ := hcases <;> simp [heq, Phase.Undecided]
  · obtain heq | ⟨outcome, heq⟩ := hcases
    · simp only [Claimed, heq]
      exact ⟨mine, hmine, hnumber, hkey, hresponse⟩
    · simp [Claimed, heq]
  · intro success hsuccess hsame _
    obtain rfl := h.eq_of_call hsuccess hmine (hsame.trans hnumber.symm)
    refine ⟨by obtain heq | ⟨outcome, heq⟩ := hcases <;> simp [heq, Phase.Settled], ?_⟩
    rintro m (hpending | ⟨later, hlater, hget⟩)
    · by_cases hm : m = member
      · subst hm
        refine .inr ⟨response, hresponse, ?_⟩
        change ((Function.update w.stores m _) m).get success.key = _
        rw [Function.update_self, completeScript, if_pos, hkey, InsertionMap.get_set, Function.update_self,
          hfingerprint]
        rw [← hkey, hpending, Call.pending, hfingerprint, hnumber]
      · left
        change ((Function.update w.stores member _) m).get success.key = _
        rwa [Function.update_of_ne hm]
    · exact .inr ⟨later, hlater, kept_setStore hkept m _ _ hget fun heq => nomatch heq⟩
  · simp [Late, hphase]

lemma Sound.answer (h : Sound config w) (i member : ℕ) (elapsed : ℚ) :
    Sound config (w.answer config i member elapsed) := by
  unfold World.answer
  cases hcall : w.calls[i]? with
  | none => exact h
  | some call =>
    dsimp only
    split_ifs with hmember
    · cases hphase : call.phase with
      | locking attempt todo locked =>
        rw [hphase] at hmember
        simp only [Call.command, hphase]
        exact h.lock hcall hphase hmember elapsed rfl
      | unlocking attempt todo =>
        simp only [Call.command, hphase]
        exact h.unlock hcall hphase
      | checking attempt todo found =>
        simp only [Call.command, hphase]
        exact h.check hcall hphase
      | completing response todo saved =>
        simp only [Call.command, hphase]
        exact h.complete hcall hphase rfl
      | releasing response todo =>
        simp only [Call.command, hphase]
        exact h.giveBack hcall hphase
      | _ =>
        rw [hphase] at hmember
        cases hmember
    · exact h

end Commands

section Moves

variable {config : Config} {w next : World} {i : ℕ} {call : Call} {phase : Phase}

lemma Sound.arrive (h : Sound config w) (hcalls : next.calls = w.calls ++ [call])
    (hsuccesses : next.successes = w.successes)
    (hkept : ∀ member key record, (w.stores member).get key = some record →
      (next.stores member).get key = some record)
    (hknown : ∀ member key record, (next.stores member).get key = some record → Known w key record)
    (hholds : Holds config next w.calls.length call)
    (hlate : ∀ success ∈ w.successes, ∀ held, Backed config w success held →
      call.cacheKey = success.key → Late success held call) : Sound config next := by
  have hget {j : ℕ} {other : Call} (hother : next.calls[j]? = some other) :
      j = w.calls.length ∧ other = call ∨ j < w.calls.length ∧ w.calls[j]? = some other := by
    rw [hcalls] at hother
    by_cases hj : j < w.calls.length
    · rw [List.getElem?_append_left hj] at hother
      exact .inr ⟨hj, hother⟩
    · rw [List.getElem?_append_right (Nat.le_of_not_lt hj), List.getElem?_singleton] at hother
      split_ifs at hother with hzero
      exact .inl ⟨Nat.le_antisymm (Nat.sub_eq_zero_iff_le.mp hzero) (Nat.le_of_not_lt hj),
        (Option.some.inj hother).symm⟩
  constructor
  · intro j other hother
    obtain ⟨rfl, rfl⟩ | ⟨hj, hother⟩ := hget hother
    · exact hholds
    · exact (h.holds j other hother).mono hj.ne
        (fun member key record hrecord (_ : record ≠ call.pending _) => hkept member key record hrecord)
        fun success hmem => hsuccesses ▸ hmem
  · intro member key record hrecord fingerprint response hcomplete
    rw [hsuccesses]
    exact hknown member key record hrecord fingerprint response hcomplete
  · rw [hsuccesses]
    exact h.once
  · intro success hsuccess
    rw [hsuccesses] at hsuccess
    obtain ⟨harrived, ⟨mine, hmine, hrest⟩, held, hbacked, hafter⟩ := h.succeeded success hsuccess
    have hlt : success.call < w.calls.length := (List.getElem?_eq_some_iff.mp hmine).1
    refine ⟨harrived, ⟨mine, ?_, hrest⟩, held, ⟨hbacked.nodup, hbacked.sub, hbacked.most, ?_⟩, ?_⟩
    · rw [hcalls, List.getElem?_append_left hlt, hmine]
    · exact fun member hmember => (hbacked.backs member hmember).mono hlt.ne
        fun member key record hrecord (_ : record ≠ call.pending _) => hkept member key record hrecord
    · intro j other hj hother hkeys
      obtain ⟨rfl, rfl⟩ | ⟨-, hother⟩ := hget hother
      · exact hlate success hsuccess held hbacked hkeys
      · exact hafter j other hj hother hkeys

lemma members_memory (hmemory : config.clients = 0) : config.members = [0] := by
  rw [Config.members, hmemory]
  rfl

lemma Sound.claim (h : Sound config w) (hmemory : config.clients = 0) (hquiet : call.closing = [])
    (habandoned : call.abandoned = false) : Sound config (w.claim call) := by
  have hbacks {success : Success} {held : List ℕ} (hbacked : Backed config w success held)
      (hkey : call.cacheKey = success.key) : (w.stores 0).get call.cacheKey ≠ none := by
    obtain ⟨member, hmember, hmembers⟩ := hbacked.exists_mem
    rw [members_memory hmemory, List.mem_singleton] at hmembers
    rw [hkey]
    exact hmembers ▸ (hbacked.backs member hmember).get_ne_none
  unfold World.claim
  split
  · rename_i existing hexisting
    refine h.arrive rfl rfl (fun _ _ _ hrecord => hrecord) h.known
      ⟨fun _ => hquiet, fun _ => habandoned, trivial⟩ ?_
    intro success hsuccess held _ hkey
    exact h.outcome hsuccess (hkey ▸ h.known 0 call.cacheKey existing hexisting) call.fingerprint
  · rename_i hnone
    split_ifs
    · refine h.arrive rfl rfl (fun _ _ _ hrecord => hrecord) h.known
        ⟨fun _ => hquiet, fun _ => habandoned, trivial⟩ ?_
      exact fun success _ held hbacked hkey => absurd hnone (hbacks hbacked hkey)
    · dsimp only
      refine h.arrive rfl rfl ?_ ?_ ⟨fun _ => hquiet, fun _ => habandoned, ?_⟩ ?_
      · intro member key record hrecord
        change ((Function.update w.stores 0 _) member).get key = some record
        by_cases hmember : member = 0
        · subst hmember
          have hkey : key ≠ call.cacheKey := by
            rintro rfl
            rw [hnone] at hrecord
            cases hrecord
          rwa [Function.update_self, InsertionMap.get_set, Function.update_of_ne hkey]
        · rwa [Function.update_of_ne hmember]
      · apply h.known_setStore
        intro key record hrecord
        by_cases hkey : key = call.cacheKey
        · rw [hkey, InsertionMap.get_set, Function.update_self] at hrecord
          obtain rfl := Option.some.inj hrecord
          exact .inr fun _ _ heq => nomatch heq
        · rw [InsertionMap.get_set, Function.update_of_ne hkey] at hrecord
          exact .inl hrecord
      · intro _
        refine ⟨[0], List.nodup_singleton 0, ?_, ?_, ?_⟩
        · rw [members_memory hmemory]
          exact fun member hmember => hmember
        · rw [members_memory hmemory]
          exact Nat.le_refl 1
        · intro member hmember
          obtain rfl := List.mem_singleton.mp hmember
          simp only [stores_setStore, Function.update_self, InsertionMap.get_set]
          rfl
      · exact fun success _ held hbacked hkey => absurd hnone (hbacks hbacked hkey)

lemma Sound.request (h : Sound config w) (host : Host) (request : Request) :
    Sound config (w.request host config request) := by
  unfold World.request
  split
  · dsimp only
    split_ifs with hmemory
    · exact h.claim hmemory rfl rfl
    · refine h.arrive rfl rfl (fun _ _ _ hrecord => hrecord) h.known ⟨fun _ => rfl, fun _ => rfl, ?_⟩
        fun _ _ _ _ _ => trivial
      exact ⟨List.nodup_range, fun member hmember => hmember, List.nodup_nil, by simp⟩
  · exact h

lemma Sound.setCall (h : Sound config w) (hcall : w.calls[i]? = some call) {later : Call}
    (hsame : later.cacheKey = call.cacheKey ∧ later.fingerprint = call.fingerprint)
    (hholds : Holds config w i later)
    (hsettled : call.phase.Settled → call.closing = [] → later.phase.Settled ∧ later.closing = [])
    (hlate : ∀ success held, Backed config w success held → Late success held call →
      Late success held later) : Sound config (w.setCall i later) := by
  refine h.goOn hcall rfl rfl hsame (fun _ _ _ hrecord _ => hrecord) h.known
    ⟨hholds.quiet, hholds.early, hholds.claimed⟩ ?_ ?_
  · intro success _ _ hphase hclosing
    obtain ⟨hsettles, hquiet⟩ := hsettled hphase hclosing
    exact ⟨hsettles, hquiet, fun _ hbacks => hbacks⟩
  · exact fun success _ held hbacked _ _ _ hafter => hlate success held hbacked hafter

lemma Sound.resume (h : Sound config w) (host : Host) (i : ℕ) :
    Sound config (step host config (.resume i) w) := by
  simp only [step]
  cases hcall : w.calls[i]? with
  | none => exact h
  | some call =>
    cases hphase : call.phase with
    | waiting attempt =>
      have hholds := h.holds i call hcall
      have hawake : call.abandoned = false := hholds.early (by rw [hphase]; trivial)
      simp only [hphase]
      refine h.setCall hcall ⟨rfl, rfl⟩ ?_ ?_ ?_
      · refine ⟨hholds.quiet, fun _ => hawake, ?_⟩
        exact ⟨List.nodup_range, fun member hmember => hmember, List.nodup_nil, by simp⟩
      · simp [hphase, Phase.Settled]
      · exact fun _ _ _ _ => trivial
    | _ => simpa only [hphase] using h

lemma Sound.succeed (h : Sound config w) (hcall : w.calls[i]? = some call) (hphase : call.phase = .handling)
    (hawake : call.abandoned = false) (response : Option Response) {phase : Phase} (hsettled : phase.Settled)
    (hearly : ¬ phase.Undecided)
    (hresponse : ∀ sent todo saved, phase = .completing sent todo saved → response = some sent) :
    Sound config ((w.succeed i call response).setCall i { call with phase }) := by
  have hholds := h.holds i call hcall
  have hlt : i < w.calls.length := (List.getElem?_eq_some_iff.mp hcall).1
  have hmajority := hholds.claimed
  rw [Claimed, hphase] at hmajority
  have hmost := hmajority hawake
  -- another success would have the key in most of the stores too
  have hnew (success : Success) (hsuccess : success ∈ w.successes) :
      success.call ≠ i ∧ success.key ≠ call.cacheKey := by
    obtain ⟨-, ⟨mine, hmine, -, -, hsettles, -⟩, held, hbacked, -⟩ := h.succeeded success hsuccess
    have hne : success.call ≠ i := by
      intro heq
      rw [heq, hcall] at hmine
      obtain rfl := Option.some.inj hmine
      rw [hphase] at hsettles
      cases hsettles
    exact ⟨hne, fun hkey => hne (hbacked.pending call (hkey ▸ hmost))⟩
  have hknown (key : String) (record : Record) (hrecord : Known w key record) :
      Known ((w.succeed i call response).setCall i { call with phase }) key record := by
    intro fingerprint sent hcomplete
    obtain ⟨success, hmem, hsuccess⟩ := hrecord fingerprint sent hcomplete
    exact ⟨success, List.mem_append_left _ hmem, hsuccess⟩
  constructor
  · intro j other hother
    obtain ⟨rfl, rfl⟩ | ⟨hne, hother⟩ := getElem?_set_cases hlt hother
    · refine ⟨hholds.quiet, fun hundecided => absurd hundecided hearly, ?_⟩
      unfold Claimed
      cases phase with
      | completing sent todo saved =>
        exact ⟨_, List.mem_append_right _ (List.mem_singleton_self _), rfl, rfl, hresponse sent todo saved rfl⟩
      | locking attempt todo locked => exact absurd trivial hearly
      | checking attempt todo found => exact absurd trivial hearly
      | handling => cases hsettled
      | _ => trivial
    · exact (h.holds j other hother).mono hne
        (fun member key record hrecord (_ : record ≠ call.pending i) => hrecord)
        fun success hmem => List.mem_append_left _ hmem
  · exact fun member key record hrecord => hknown key record (h.known member key record hrecord)
  · change ((w.successes ++ [_]).map Success.key).Nodup
    rw [List.map_append, List.nodup_append]
    refine ⟨h.once, List.nodup_singleton _, ?_⟩
    rintro key hkey _ hlast rfl
    obtain ⟨success, hsuccess, rfl⟩ := List.mem_map.mp hkey
    exact (hnew success hsuccess).2 (List.mem_singleton.mp hlast)
  · intro success hsuccess
    obtain hold | hlast := List.mem_append.mp hsuccess
    · obtain ⟨harrived, ⟨mine, hmine, hrest⟩, held, hbacked, hafter⟩ := h.succeeded success hold
      refine ⟨harrived, ⟨mine, ?_, hrest⟩, held, ⟨hbacked.nodup, hbacked.sub, hbacked.most, hbacked.backs⟩, ?_⟩
      · change (w.calls.set i _)[success.call]? = _
        rw [List.getElem?_set_ne (Ne.symm (hnew success hold).1), hmine]
      · intro j other hj hother hkeys
        obtain ⟨rfl, rfl⟩ | ⟨-, hother⟩ := getElem?_set_cases hlt hother
        · exact absurd hkeys.symm (hnew success hold).2
        · exact hafter j other hj hother hkeys
    · obtain rfl := List.mem_singleton.mp hlast
      obtain ⟨held, hnodup, hsub, hmany, hheld⟩ := hmost
      refine ⟨hlt, ⟨{ call with phase }, ?_, rfl, rfl, hsettled, hholds.quiet hawake⟩, held,
        ⟨hnodup, hsub, hmany, fun member hmember => .inl (hheld member hmember)⟩, ?_⟩
      · change (w.calls.set i _)[i]? = _
        rw [List.getElem?_set_self hlt]
      · intro j other hj hother
        have hbound := (List.getElem?_eq_some_iff.mp hother).1
        change j < (w.calls.set i _).length at hbound
        rw [List.length_set] at hbound
        exact absurd hbound (Nat.not_lt.mpr hj)

lemma Sound.settle (h : Sound config ((w.setCall i { call with phase }))) :
    Sound config (w.settle config i call phase) := by
  unfold World.settle
  dsimp only
  split_ifs
  · exact h.answer i 0 0
  · exact h

lemma Sound.send (h : Sound config w) (response : Response) (hattended : Attended w (.send i response)) :
    Sound config (w.send config i response) := by
  unfold World.send
  cases hcall : w.calls[i]? with
  | none => exact h
  | some call =>
    dsimp only
    split_ifs with hphase hsuccess
    · have hawake := hattended hsuccess call hcall hphase
      apply Sound.settle
      refine h.succeed hcall hphase hawake (some response) ?_ ?_ ?_
      · trivial
      · exact fun hundecided => hundecided
      · rintro sent todo saved ⟨⟩
        rfl
    · apply Sound.settle
      refine h.setCall hcall ⟨rfl, rfl⟩ ?_ ?_ ?_
      · exact ⟨(h.holds i call hcall).quiet, fun hundecided => hundecided.elim, trivial⟩
      · simp [hphase, Phase.Settled]
      · simp [Late, hphase]
    · exact h

lemma Sound.finish (h : Sound config w) (status : ℕ) (hattended : Attended w (.finish i status)) :
    Sound config (w.finish i status) := by
  unfold World.finish
  cases hcall : w.calls[i]? with
  | none => exact h
  | some call =>
    dsimp only
    split_ifs with hphase hsuccess
    · have hawake := hattended hsuccess call hcall hphase
      refine h.succeed hcall hphase hawake none hsuccess ?_ ?_
      · exact fun hundecided => hundecided
      · rintro sent todo saved ⟨⟩
    · refine h.setCall hcall ⟨rfl, rfl⟩ ?_ ?_ ?_
      · exact ⟨(h.holds i call hcall).quiet, fun hundecided => hundecided.elim, trivial⟩
      · simp [hphase, Phase.Settled]
      · simp [Late, hphase]
    · exact h

lemma Sound.release (h : Sound config w) (hcall : w.calls[i]? = some call) (member : ℕ) {later : Call}
    (hsame : later.cacheKey = call.cacheKey ∧ later.fingerprint = call.fingerprint)
    (hphase : later.phase = call.phase) (habandoned : later.abandoned = true)
    (hdecided : ¬ call.phase.Undecided) (hfailed : call.phase.Settled → call.closing ≠ []) :
    Sound config ((w.release i call member).setCall i later) := by
  have hclaimed := (h.holds i call hcall).claimed
  refine h.goOn hcall rfl rfl hsame ?_ ?_ ⟨?_, ?_, ?_⟩ ?_ ?_
  · exact kept_setStore fun k record hrecord hne => get_releaseScript hrecord hne
  · exact h.known_setStore fun k record hrecord => .inl (get_of_get_releaseScript hrecord)
  · simp [habandoned]
  · exact fun hundecided => absurd (hphase ▸ hundecided) hdecided
  · unfold Claimed at hclaimed ⊢
    rw [hphase]
    cases hcase : call.phase with
    | locking attempt todo locked => exact absurd (hcase ▸ trivial) hdecided
    | checking attempt todo found => exact absurd (hcase ▸ trivial) hdecided
    | handling => exact fun hawake => absurd (habandoned.symm.trans hawake) Bool.noConfusion
    | completing response todo saved =>
      rw [hcase] at hclaimed
      rw [hsame.1]
      exact hclaimed
    | _ => trivial
  · exact fun success _ _ hsettled hclosing => absurd hclosing (hfailed hsettled)
  · intro success _ held _ _ _ _ hafter
    unfold Late at hafter ⊢
    rw [hphase, hsame.2]
    exact hafter

lemma Sound.abandon (h : Sound config w) (hcall : w.calls[i]? = some call)
    (hphase : call.phase = .handling ∨ ∃ status, call.phase = .ended status ∧ isSuccess status = false) :
    Sound config (w.abandon config i call) := by
  have hfailed : ¬ call.phase.Settled := by
    obtain heq | ⟨status, heq, hstatus⟩ := hphase
    · simp [heq, Phase.Settled]
    · simp [heq, Phase.Settled, hstatus]
  have hdecided : ¬ call.phase.Undecided := by
    obtain heq | ⟨status, heq, -⟩ := hphase <;> simp [heq, Phase.Undecided]
  unfold World.abandon
  split_ifs
  · exact h.release hcall 0 ⟨rfl, rfl⟩ rfl rfl hdecided fun hsettled => absurd hsettled hfailed
  · refine h.setCall hcall ⟨rfl, rfl⟩ ⟨?_, ?_, ?_⟩ ?_ ?_
    · rintro ⟨⟩
    · exact fun hundecided => absurd hundecided hdecided
    · obtain heq | ⟨status, heq, -⟩ := hphase <;> simp [Claimed, heq]
    · exact fun hsettled => absurd hsettled hfailed
    · intro success held _ hafter
      obtain heq | ⟨status, heq, -⟩ := hphase
      · simp [Late, heq] at hafter
      · simp [Late, heq] at hafter

lemma Sound.close (h : Sound config w) (hattended : Attended w (.close i)) :
    Sound config (w.close config i) := by
  unfold World.close
  cases hcall : w.calls[i]? with
  | none => exact h
  | some call =>
    have hholds := h.holds i call hcall
    have hfailed := hattended call hcall
    dsimp only
    by_cases hclosed : call.closed
    · rw [if_pos hclosed]
      exact h
    · rw [if_neg hclosed]
      split
      · exact h.abandon hcall (.inl ‹_›)
      · rename_i status hphase
        rw [hphase] at hfailed
        exact h.abandon hcall (.inr ⟨status, hphase, hfailed⟩)
      · exact h.setCall hcall ⟨rfl, rfl⟩ ⟨hholds.quiet, hholds.early, hholds.claimed⟩
          (fun hsettled hclosing => ⟨hsettled, hclosing⟩) fun _ _ _ hafter => hafter

lemma Sound.closeAnswer (h : Sound config w) (i member : ℕ) : Sound config (w.closeAnswer i member) := by
  unfold World.closeAnswer
  cases hcall : w.calls[i]? with
  | none => exact h
  | some call =>
    have hholds := h.holds i call hcall
    dsimp only
    split_ifs with hmember
    · have hclosing : call.closing ≠ [] := List.ne_nil_of_mem hmember
      have habandoned : call.abandoned = true := by
        by_contra hawake
        exact hclosing (hholds.quiet (Bool.eq_false_iff.mpr hawake))
      have hdecided : ¬ call.phase.Undecided := by
        intro hundecided
        exact absurd (habandoned.symm.trans (hholds.early hundecided)) Bool.noConfusion
      exact h.release hcall member ⟨rfl, rfl⟩ rfl habandoned hdecided fun _ => hclosing
    · exact h

lemma Sound.step (h : Sound config w) (host : Host) {move : Move} (hattended : Attended w move) :
    Sound config (step host config move w) := by
  cases move with
  | request request => exact h.request host request
  | answer i member elapsed => exact h.answer i member elapsed
  | resume i => exact h.resume host i
  | send i response => exact h.send response hattended
  | finish i status => exact h.finish status hattended
  | close i => exact h.close hattended
  | closeAnswer i member => exact h.closeAnswer i member

lemma Sound.onlyOnce (h : Sound config w) : OnlyOnce w := by
  refine ⟨h.once, ?_⟩
  intro success hsuccess i call hi hcall hkey
  obtain ⟨-, -, held, -, hafter⟩ := h.succeeded success hsuccess
  have hlate := hafter i call hi hcall hkey
  unfold Late at hlate
  cases hphase : call.phase with
  | answered outcome =>
    rw [hphase] at hlate
    obtain ⟨message, rfl⟩ | ⟨hsame, response, hresponse, rfl⟩ := hlate
    · exact .inr (.inl ⟨message, rfl⟩)
    · exact .inr (.inr ⟨hsame, response, hresponse, rfl⟩)
  | locking | unlocking | checking | waiting => exact .inl trivial
  | _ =>
    rw [hphase] at hlate
    cases hlate

end Moves

/-- However requests, stores, handlers and ends of connections interleave, a handler succeeds once for a
key, and who comes later gets its response or a conflict, if no handler outlives its key's release. -/
theorem handled_once (host : Host) (config : Config) {moves : List Move}
    (hattended : Along (step host config) Attended {} moves) :
    OnlyOnce (run (step host config) {} moves) :=
  (run_invariant (I := Sound config) (fun _ _ h hmove => h.step host hmove) (sound_init config)
    hattended).onlyOnce

def sampleHost : Host := ⟨sampleSha256⟩

def payment : Request where
  method := "POST"
  path := "/payments"
  originalUrl := "/api/v1/payments"
  idempotencyKey := some "k"
  body := some (.object [("amount", .number "10")])
  authorization := none
  apiKey := none
  cookie := none

/-- A payment with three stores; one that comes meanwhile and one that comes later. -/
theorem handled_once_sample : OnlyOnce (run (step sampleHost { clients := 3, retryCount := 0 }) {}
    ([.request payment, .answer 0 0 1, .answer 0 1 1, .answer 0 2 1, .request payment] ++
      [.answer 1 0 1, .answer 1 1 1, .answer 1 2 1, .answer 1 2 1, .answer 1 1 1, .answer 1 0 1] ++
      [.send 0 ⟨201, "paid", none⟩, .answer 0 0 1, .answer 0 2 1, .answer 0 1 1, .close 0] ++
      [.request payment, .answer 2 0 1, .answer 2 1 1, .answer 2 2 1, .answer 2 2 1, .answer 2 1 1,
        .answer 2 0 1])) :=
  handled_once sampleHost { clients := 3, retryCount := 0 } (by decide +kernel)

/-- The client goes away while the handler runs, and comes again: the payment is made twice. -/
theorem closed_while_handling :
    ¬ ∀ (host : Host) (config : Config) (moves : List Move), OnlyOnce (run (step host config) {} moves) := by
  intro h
  have honce := (h sampleHost { clients := 0 } [.request payment, .close 0, .request payment,
    .send 1 ⟨201, "paid", none⟩, .send 0 ⟨201, "paid", none⟩]).once
  revert honce
  decide +kernel

end StellarTags.Middleware.Idempotency
