import Mathlib.Data.List.Basic
import StellarTags.Webhooks.Deliveries

/-! Whether a breaker that is not closed can always be probed again. -/

namespace StellarTags.Webhooks.Deliveries

open Library.Runs

section Condition

variable {D : Type} (host : Host) (config : Config)

/-- The slot that a task holds; that of a queued job is held by the job. -/
def Phase.slot : Phase D → Option Holder
  | adding data ticket => ticket.map (Holder.mk (data.webhook.domain host))
  | sending (.probe webhook _ _ ticket) | reporting (.probe webhook _ _ ticket) _
  | saving (.probe webhook _ _ ticket) _ _ _ => some ⟨webhook.domain host, ticket⟩
  | _ => none

def Job.slot (job : Job D) : Option Holder := job.ticket.map (Holder.mk (job.webhook.domain host))

/-- A task or a job holds the slot. -/
def Carries (w : World D) (holder : Holder) : Prop :=
  (∃ i, (w.tasks i).slot host = some holder) ∨
    ∃ id job, w.jobs id = some job ∧ job.slot host = some holder

/-- No delivery to the domain is queued, and no request of a probe is under way. -/
def Quiet (w : World D) (domain : String) : Prop :=
  (∀ i holder, (w.tasks i).slot host = some holder → holder.domain ≠ domain) ∧
    ∀ id job, w.jobs id = some job → job.webhook.domain host ≠ domain

/-- The flag is set where somebody holds the slot only; so where nothing is under way, and the interval
is over, the slot can be won. -/
structure Recoverable (w : World D) : Prop where
  held : ∀ domain, (w.records domain).probing = true →
    ∃ holder, holder.domain = domain ∧ Carries host w holder
  recovers : ∀ domain, (w.records domain).state ≠ .CLOSED → Quiet host w domain →
    (w.records domain).lastProbeTime + config.probeInterval ≤ w.now →
      (canQueueDelivery config.toBreakerConfig (w.records domain) w.now).canProbe = true ∧
        (acquireProbeSlot config.toBreakerConfig (w.records domain) w.now).isSome

/-- Who has won the slot does not crash, and its job is new to the queue. -/
def Survives (w : World D) (move : Move D) : Prop :=
  match move with
  | .resume i succeeds =>
    match w.tasks i with
    | .adding data (some _) =>
      succeeds = true ∧ (w.jobs (data.jobId host)).isNone ∧ data.jobId host ∉ w.finished
    | _ => True
  | .crash i => (w.tasks i).slot host = none
  | _ => True

instance (w : World D) (move : Move D) : Decidable (Survives host w move) :=
  match move with
  | .resume i _ => by
    dsimp only [Survives]
    exact match w.tasks i with
    | .adding _ (some _) => inferInstance
    | .adding _ none | .idle | .checking .. | .acquiring .. | .claiming .. | .sending .. | .reporting ..
    | .saving .. | .routing .. | .moving .. | .done => inferInstance
  | .crash i => inferInstanceAs (Decidable ((w.tasks i).slot host = none))
  | .dispatch .. | .runProbeCycle .. | .work .. | .expire .. | .forget .. | .wait .. => instDecidableTrue

end Condition

section Attempts

variable {D : Type} {host : Host} {config : Config} {w next : World D} {i : ℕ} {id : String}
  {webhook : Webhook} {job : Job D} {phase : Phase D}

/-- The job that a task attempts, with its webhook. -/
def Phase.attempt : Phase D → Option (String × Webhook)
  | sending (.job id webhook) | reporting (.job id webhook) _ | saving (.job id webhook) _ _ _ =>
    some (id, webhook)
  | _ => none

/-- An attempt has its job to itself. -/
structure Attempted (w : World D) : Prop where
  job : ∀ i id webhook, (w.tasks i).attempt = some (id, webhook) →
    ∃ job, w.jobs id = some job ∧ job.active = true ∧ job.webhook = webhook
  unique : ∀ i j id webhook webhook', (w.tasks i).attempt = some (id, webhook) →
    (w.tasks j).attempt = some (id, webhook') → i = j

lemma Attempted.congr (h : Attempted w) (hjobs : next.jobs = w.jobs)
    (htasks : ∀ j, (next.tasks j).attempt = (w.tasks j).attempt ∨ (next.tasks j).attempt = none) :
    Attempted next where
  job j id webhook hj := by
    obtain heq | hnone := htasks j
    · rw [hjobs]
      exact h.job j id webhook (heq ▸ hj)
    · rw [hnone] at hj
      cases hj
  unique j k id webhook webhook' hj hk := by
    obtain heq | hnone := htasks j
    · obtain heq' | hnone := htasks k
      · exact h.unique j k id webhook webhook' (heq ▸ hj) (heq' ▸ hk)
      · rw [hnone] at hk
        cases hk
    · rw [hnone] at hj
      cases hj

lemma Attempted.setTask (h : Attempted w) (i : ℕ)
    (hphase : phase.attempt = (w.tasks i).attempt ∨ phase.attempt = none) :
    Attempted (w.setTask i phase) := by
  have hjobs : (w.setTask i phase).jobs = w.jobs := rfl
  refine h.congr hjobs fun j => ?_
  by_cases hj : j = i
  · subst hj
    simpa only [World.setTask, Function.update_self] using hphase
  · exact .inl (by simp only [World.setTask, Function.update_of_ne hj])

lemma Attempted.idle (h : Attempted w) {i j : ℕ} (hi : (w.tasks i).attempt = some (id, webhook))
    (hj : j ≠ i) (webhook' : Webhook) : (w.tasks j).attempt ≠ some (id, webhook') :=
  fun hattempt => hj (h.unique j i id webhook' webhook hattempt hi)

lemma Attempted.setJob (h : Attempted w) (job : Option (Job D))
    (hnone : ∀ j webhook, (w.tasks j).attempt ≠ some (id, webhook)) : Attempted (w.setJob id job) where
  job j other webhook hj := by
    have hne : other ≠ id := by
      rintro rfl
      exact hnone j webhook hj
    simp only [World.setJob, Function.update_of_ne hne]
    exact h.job j other webhook hj
  unique := h.unique

lemma Attempted.over (h : Attempted w) (hi : (w.tasks i).attempt = some (id, webhook))
    (job : Option (Job D)) (hphase : phase.attempt = none) :
    Attempted ((w.setJob id job).setTask i phase) := by
  have hdone : Attempted (w.setTask i phase) := h.setTask i (.inr hphase)
  refine hdone.setJob job fun j webhook' hj => ?_
  by_cases hne : j = i
  · subst hne
    simp only [World.setTask, Function.update_self, hphase] at hj
    cases hj
  · simp only [World.setTask, Function.update_of_ne hne] at hj
    exact h.idle hi hne webhook' hj

lemma Attempted.start (h : Attempted w) (hidle : (w.tasks i).attempt = none)
    (hjob : w.jobs id = some job) (hactive : job.active = false) :
    Attempted ((w.setJob id (some { job with active := true })).setTask i
      (.sending (.job id job.webhook))) := by
  have hfree (j : ℕ) (webhook : Webhook) : (w.tasks j).attempt ≠ some (id, webhook) := by
    intro hj
    obtain ⟨other, hother, hbusy, -⟩ := h.job j id webhook hj
    rw [hjob] at hother
    obtain rfl := Option.some.inj hother
    rw [hactive] at hbusy
    cases hbusy
  have hset := h.setJob (some { job with active := true }) hfree
  set next := (w.setJob id (some { job with active := true })).setTask i (.sending (.job id job.webhook))
  have hself : next.tasks i = .sending (.job id job.webhook) := Function.update_self ..
  have hother {j : ℕ} (hj : j ≠ i) : next.tasks j = w.tasks j := Function.update_of_ne hj ..
  constructor
  · intro j other webhook hj
    by_cases hne : j = i
    · subst hne
      rw [hself] at hj
      obtain ⟨rfl, rfl⟩ := Prod.mk.inj (Option.some.inj hj)
      exact ⟨{ job with active := true }, Function.update_self .., rfl, rfl⟩
    · rw [hother hne] at hj
      exact hset.job j other webhook hj
  · intro j k other webhook webhook' hj hk
    by_cases hne : j = i
    · subst hne
      by_cases hne' : k = j
      · exact hne'.symm
      · rw [hself] at hj
        obtain ⟨rfl, -⟩ := Prod.mk.inj (Option.some.inj hj)
        rw [hother hne'] at hk
        exact absurd hk (hfree k webhook')
    · rw [hother hne] at hj
      by_cases hne' : k = i
      · subst hne'
        rw [hself] at hk
        obtain ⟨rfl, -⟩ := Prod.mk.inj (Option.some.inj hk)
        exact absurd hj (hfree j webhook)
      · rw [hother hne'] at hk
        exact h.unique j k other webhook webhook' hj hk

end Attempts

section Held

variable {D : Type} {host : Host} {config : Config} {w next : World D} {move : Move D} {i : ℕ}
  {domain : String} {holder : Holder} {phase : Phase D} {call : Call D} {delivery : Delivery}

structure Held (host : Host) (w : World D) : Prop where
  held : ∀ domain, (w.records domain).probing = true →
    ∃ holder, holder.domain = domain ∧ Carries host w holder
  saved : ∀ i delivery ok record version, w.tasks i = .saving delivery ok record version →
    record.probing = false
  attempted : Attempted w

lemma Carries.congr (h : Carries host w holder) (htasks : next.tasks = w.tasks)
    (hjobs : next.jobs = w.jobs) : Carries host next holder := by
  unfold Carries
  rwa [htasks, hjobs]

lemma Carries.setTask (h : Carries host w holder) (i : ℕ)
    (hslot : (w.tasks i).slot host = some holder → phase.slot host = some holder) :
    Carries host (w.setTask i phase) holder := by
  obtain ⟨j, hj⟩ | hjob := h
  · refine .inl ⟨j, ?_⟩
    by_cases hne : j = i
    · subst hne
      simpa only [World.setTask, Function.update_self] using hslot hj
    · simpa only [World.setTask, Function.update_of_ne hne] using hj
  · exact .inr hjob

lemma Carries.setJob (h : Carries host w holder) {id : String} {next : Option (Job D)}
    (hjob : ∀ job, w.jobs id = some job → job.slot host = some holder →
      ∃ later, next = some later ∧ later.slot host = some holder) :
    Carries host (w.setJob id next) holder := by
  obtain htask | ⟨other, job, hother, hslot⟩ := h
  · exact .inl htask
  · refine .inr ?_
    by_cases hne : other = id
    · subst hne
      obtain ⟨later, rfl, hlater⟩ := hjob job hother hslot
      exact ⟨other, later, Function.update_self .., hlater⟩
    · exact ⟨other, job, by simpa only [World.setJob, Function.update_of_ne hne] using hother, hslot⟩

lemma Held.mono (h : Held host w)
    (hheld : ∀ domain, (next.records domain).probing = true → next.records domain = w.records domain ∧
      ∀ holder, holder.domain = domain → Carries host w holder → Carries host next holder)
    (hsaved : ∀ i delivery ok record version, next.tasks i = .saving delivery ok record version →
      w.tasks i = .saving delivery ok record version ∨ record.probing = false)
    (hattempted : Attempted next) : Held host next where
  held domain hprobing := by
    obtain ⟨hsame, hcarries⟩ := hheld domain hprobing
    rw [hsame] at hprobing
    obtain ⟨holder, hdomain, hcarried⟩ := h.held domain hprobing
    exact ⟨holder, hdomain, hcarries holder hdomain hcarried⟩
  saved j delivery ok record version hj := by
    obtain hbefore | hfree := hsaved j delivery ok record version hj
    · exact h.saved j delivery ok record version hbefore
    · exact hfree
  attempted := hattempted

lemma Held.congr (h : Held host w) (hrecords : next.records = w.records) (htasks : next.tasks = w.tasks)
    (hjobs : next.jobs = w.jobs) : Held host next := by
  refine h.mono (fun domain _ => ⟨hrecords ▸ rfl, fun _ _ hcarried => hcarried.congr htasks hjobs⟩) ?_ ?_
  · rw [htasks]
    exact fun j delivery ok record version hj => .inl hj
  · exact h.attempted.congr hjobs fun j => .inl (htasks ▸ rfl)

lemma Held.setTask (h : Held host w) (i : ℕ)
    (hslot : (w.tasks i).slot host = none ∨ phase.slot host = (w.tasks i).slot host)
    (hattempt : phase.attempt = (w.tasks i).attempt ∨ phase.attempt = none)
    (hsaved : ∀ delivery ok record version, phase = .saving delivery ok record version →
      record.probing = false) : Held host (w.setTask i phase) := by
  refine h.mono (fun domain _ => ⟨rfl, fun holder _ hcarried => hcarried.setTask i fun hholds => ?_⟩) ?_
    (h.attempted.setTask i hattempt)
  · obtain hnone | hsame := hslot
    · rw [hnone] at hholds
      cases hholds
    · rw [hsame, hholds]
  · intro j delivery ok record version hj
    by_cases hne : j = i
    · subst hne
      simp only [World.setTask, Function.update_self] at hj
      exact .inr (hsaved delivery ok record version hj)
    · simp only [World.setTask, Function.update_of_ne hne] at hj
      exact .inl hj

lemma nextWebhook_quiet (host : Host) (probed : List String) (webhooks : List Webhook) :
    (nextWebhook host probed webhooks : Phase D).slot host = none ∧
      (nextWebhook host probed webhooks : Phase D).attempt = none ∧
      ∀ delivery ok record version,
        (nextWebhook host probed webhooks : Phase D) ≠ .saving delivery ok record version := by
  apply nextWebhook_rule (P := fun phase : Phase D => phase.slot host = none ∧
    phase.attempt = none ∧ ∀ delivery ok record version, phase ≠ .saving delivery ok record version)
  · exact ⟨rfl, rfl, fun _ _ _ _ heq => nomatch heq⟩
  · intro webhook rest probed
    exact ⟨rfl, rfl, fun _ _ _ _ heq => nomatch heq⟩

lemma Held.nextWebhook (h : Held host w) (hslot : (w.tasks i).slot host = none) (probed : List String)
    (webhooks : List Webhook) : Held host (w.setTask i (nextWebhook host probed webhooks)) := by
  obtain ⟨-, hattempt, hsaving⟩ := nextWebhook_quiet (D := D) host probed webhooks
  exact h.setTask i (.inl hslot) (.inr hattempt)
    fun delivery ok record version heq => absurd heq (hsaving delivery ok record version)

lemma Held.done (h : Held host w) (hslot : (w.tasks i).slot host = none) :
    Held host (w.setTask i .done) :=
  h.setTask i (.inl hslot) (.inr rfl) fun _ _ _ _ heq => nomatch heq

lemma Held.halt (h : Held host w) (hslot : (w.tasks i).slot host = none) (call : Call D) :
    Held host (w.halt host i call) := by
  cases call with
  | enqueue data =>
    have hnoted : Held host (w.note (.halted data)) := h.congr rfl rfl rfl
    exact hnoted.done hslot
  | cycle webhook rest probed => exact h.nextWebhook hslot probed rest

/-- A task that holds nothing goes on, and holds nothing. -/
lemma Held.goOn (h : Held host w) (hslot : (w.tasks i).slot host = none) (hattempt : phase.attempt = none)
    (hsaving : ∀ delivery ok record version, phase ≠ .saving delivery ok record version) :
    Held host (w.setTask i phase) :=
  h.setTask i (.inl hslot) (.inr hattempt)
    fun delivery ok record version heq => absurd heq (hsaving delivery ok record version)

lemma Held.check (h : Held host w) (hslot : (w.tasks i).slot host = none) (call : Call D) :
    Held host (w.check host config i call) := by
  have hnoted (event : Event D) : Held host (w.note event) := h.congr rfl rfl rfl
  cases call with
  | enqueue data =>
    simp only [World.check]
    split_ifs
    · exact h.goOn hslot rfl (by simp)
    · exact (hnoted _).goOn hslot rfl (by simp)
    · exact (hnoted _).halt hslot _
  | cycle webhook rest probed =>
    simp only [World.check]
    split_ifs
    · exact h.goOn hslot rfl (by simp)
    · exact h.halt hslot _

lemma Held.acquire (h : Held host w) (hslot : (w.tasks i).slot host = none) (call : Call D) :
    Held host (w.acquire host config i call) := by
  simp only [World.acquire]
  cases acquireProbeSlot config.toBreakerConfig (w.records (call.webhook.domain host)) w.now with
  | none => exact h.halt hslot call
  | some claimed => exact h.goOn hslot rfl (by simp)

lemma Held.claim (h : Held host w) (hslot : (w.tasks i).slot host = none) (record : BreakerRecord) :
    Held host (w.claim host i call record) := by
  set won : Phase D := call.won host w.wins.length
  have hwon : won.slot host = some ⟨call.webhook.domain host, w.wins.length⟩ ∧ won.attempt = none ∧
      ∀ delivery ok record version, won ≠ .saving delivery ok record version := by
    cases call <;> exact ⟨rfl, rfl, fun _ _ _ _ heq => nomatch heq⟩
  obtain ⟨hcarries, hattempt, hsaving⟩ := hwon
  have hset := h.goOn hslot hattempt hsaving
  refine ⟨fun domain hprobing => ?_, hset.saved, hset.attempted.congr rfl fun _ => .inl rfl⟩
  by_cases hdomain : domain = call.webhook.domain host
  · subst hdomain
    exact ⟨⟨call.webhook.domain host, w.wins.length⟩, rfl,
      .inl ⟨i, by simpa [World.claim, World.setTask] using hcarries⟩⟩
  · have hbefore : (w.records domain).probing = true := by
      simpa [World.claim, World.setTask, World.write, hdomain] using hprobing
    obtain ⟨holder, hsame, hcarried⟩ := hset.held domain hbefore
    exact ⟨holder, hsame, hcarried.congr rfl rfl⟩

lemma Held.add (h : Held host w) {data : JobData D} {ticket : Option ℕ} {succeeds : Bool}
    (hphase : w.tasks i = .adding data ticket)
    (hsurvives : Survives host w (.resume i succeeds)) :
    Held host (w.add host i data ticket succeeds) := by
  have hadded (hnone : w.jobs (data.jobId host) = none) :
      Held host ((w.setJob (data.jobId host) (some { data with ticket })).setTask i .done) := by
    have hfree (j : ℕ) (webhook : Webhook) : (w.tasks j).attempt ≠ some (data.jobId host, webhook) := by
      intro hj
      obtain ⟨job, hjob, -⟩ := h.attempted.job j _ webhook hj
      rw [hnone] at hjob
      cases hjob
    refine h.mono (fun domain _ => ⟨rfl, fun holder _ hcarried => ?_⟩) ?_
      ((h.attempted.setJob _ hfree).setTask i (.inr rfl))
    · by_cases hholds : (w.tasks i).slot host = some holder
      · rw [hphase] at hholds
        exact .inr ⟨data.jobId host, { data with ticket }, Function.update_self .., hholds⟩
      · have hset : Carries host (w.setJob (data.jobId host) (some { data with ticket })) holder := by
          apply hcarried.setJob
          rw [hnone]
          exact fun _ heq => nomatch heq
        exact hset.setTask i fun heq => absurd heq hholds
    · intro j delivery ok record version hj
      by_cases hne : j = i
      · subst hne
        simp [World.setTask] at hj
      · simp only [World.setTask, Function.update_of_ne hne] at hj
        exact .inl hj
  simp only [World.add]
  split_ifs with haccepted
  · exact hadded haccepted.2.1
  · cases ticket with
    | none =>
      have hreleased : Held host (w.release (data.webhook.domain host) none) := h.congr rfl rfl rfl
      exact hreleased.done (by simp [World.release, hphase, Phase.slot])
    | some ticket =>
      simp only [Survives, hphase, Option.isNone_iff_eq_none] at hsurvives
      exact absurd hsurvives haccepted

lemma Held.report (h : Held host w) {ok : Bool} (hphase : w.tasks i = .reporting delivery ok) :
    Held host (w.report host config i delivery ok) := by
  apply h.setTask i
  · rw [hphase]
    cases delivery <;> exact .inr rfl
  · rw [hphase]
    cases delivery <;> exact .inl rfl
  · intro delivery' ok' record version heq
    obtain ⟨-, -, rfl, -⟩ := Phase.saving.inj heq
    cases ok with
    | true => exact handleDeliverySuccess_probing
    | false =>
      rw [if_neg Bool.false_ne_true]
      exact handleDeliveryFailure_probing rfl

lemma Held.save (h : Held host w) {ok : Bool} {record : BreakerRecord} {version : ℕ}
    (hphase : w.tasks i = .saving delivery ok record version) :
    Held host (w.save host config i delivery ok record) := by
  have hfree := h.saved i delivery ok record version hphase
  have hheld {next : World D}
      (hrecords : next.records = Function.update w.records (delivery.webhook.domain host) record)
      (hcarries : ∀ holder, holder.domain ≠ delivery.webhook.domain host → Carries host w holder →
        Carries host next holder) (domain : String) (hprobing : (next.records domain).probing = true) :
      next.records domain = w.records domain ∧
        ∀ holder, holder.domain = domain → Carries host w holder → Carries host next holder := by
    have hne : domain ≠ delivery.webhook.domain host := by
      rintro rfl
      rw [hrecords, Function.update_self, hfree] at hprobing
      cases hprobing
    rw [hrecords, Function.update_of_ne hne]
    exact ⟨rfl, fun holder hdomain => hcarries holder (hdomain ▸ hne)⟩
  have hsaved {next : World D} {phase : Phase D}
      (hsaving : ∀ delivery ok record version, phase ≠ .saving delivery ok record version)
      (htasks : next.tasks = Function.update w.tasks i phase) (j : ℕ) (delivery : Delivery) (ok : Bool)
      (record : BreakerRecord) (version : ℕ) (hj : next.tasks j = .saving delivery ok record version) :
      w.tasks j = .saving delivery ok record version ∨ record.probing = false := by
    rw [htasks] at hj
    by_cases hne : j = i
    · subst hne
      rw [Function.update_self] at hj
      exact absurd hj (hsaving delivery ok record version)
    · rw [Function.update_of_ne hne] at hj
      exact .inl hj
  cases delivery with
  | probe webhook rest probed ticket =>
    obtain ⟨-, hattempt, hsaving⟩ := nextWebhook_quiet (D := D) host probed rest
    apply h.mono
    · apply hheld rfl
      intro holder hdomain hcarried
      have hset : Carries host (w.setTask i (Deliveries.nextWebhook host probed rest)) holder := by
        apply hcarried.setTask i
        rw [hphase]
        intro heq
        obtain rfl := Option.some.inj heq
        exact absurd rfl hdomain
      exact hset.congr rfl rfl
    · exact hsaved hsaving rfl
    · exact (h.attempted.setTask i (.inr hattempt)).congr rfl fun _ => .inl rfl
  | job id webhook =>
    have hattempt : (w.tasks i).attempt = some (id, webhook) := by
      rw [hphase]
      rfl
    have hslot : (w.tasks i).slot host = none := by
      rw [hphase]
      rfl
    obtain ⟨job, hjob, -, hwebhook⟩ := h.attempted.job i id webhook hattempt
    have hover (later : Option (Job D)) {phase : Phase D} {next : World D}
        (hrecords : next.records = Function.update w.records (webhook.domain host) record)
        (hjobs : next.jobs = Function.update w.jobs id later)
        (htasks : next.tasks = Function.update w.tasks i phase) (hattempt' : phase.attempt = none)
        (hsaving : ∀ delivery ok record version, phase ≠ .saving delivery ok record version) :
        Held host next := by
      apply h.mono
      · apply hheld hrecords
        intro holder hdomain hcarried
        have hset : Carries host ((w.setJob id later).setTask i phase) holder := by
          refine (hcarried.setJob fun other hother hholds => ?_).setTask i fun heq => ?_
          · rw [hjob] at hother
            obtain rfl := Option.some.inj hother
            obtain ⟨ticket, -, rfl⟩ := Option.map_eq_some_iff.mp hholds
            exact absurd (hwebhook ▸ rfl) hdomain
          · have hheld : (w.tasks i).slot host = some holder := heq
            rw [hslot] at hheld
            cases hheld
        exact hset.congr htasks hjobs
      · exact hsaved hsaving htasks
      · exact (h.attempted.over hattempt later hattempt').congr hjobs fun _ => .inl (htasks ▸ rfl)
    have hfound : (((w.release (webhook.domain host) (w.ticket (.job id webhook))).write
        (webhook.domain host) record).jobs id) = some job := hjob
    simp only [World.save, World.finish, Delivery.webhook, hfound]
    split_ifs
    · exact hover none rfl rfl rfl rfl (by simp)
    · exact hover _ rfl rfl rfl rfl (by simp)
    · exact hover none rfl rfl rfl rfl (by simp)

lemma Held.drop (h : Held host w) (hdelivery : (w.tasks i).slot host = none)
    (hattempt : ∀ id webhook, delivery = .job id webhook → (w.tasks i).attempt = some (id, webhook))
    (hprobe : ∀ webhook rest probed ticket, delivery ≠ .probe webhook rest probed ticket) :
    Held host ((w.dropDelivery host delivery).setTask i .done) := by
  cases delivery with
  | probe webhook rest probed ticket => exact absurd rfl (hprobe webhook rest probed ticket)
  | job id webhook =>
    refine h.mono (fun domain _ => ⟨rfl, fun holder _ hcarried => ?_⟩) ?_
      (h.attempted.over (hattempt id webhook rfl) _ rfl)
    · refine (hcarried.setJob fun job hjob hslot => ?_).setTask i fun heq => ?_
      · rw [hjob]
        exact ⟨_, rfl, hslot⟩
      · have hheld : (w.tasks i).slot host = some holder := heq
        rw [hdelivery] at hheld
        cases hheld
    · intro j delivery ok record version hj
      by_cases hne : j = i
      · subst hne
        simp [World.setTask] at hj
      · simp only [World.setTask, Function.update_of_ne hne] at hj
        exact .inl hj

lemma Held.crash (h : Held host w) (hslot : (w.tasks i).slot host = none) : Held host (w.crash host i) := by
  have hdelivery {delivery : Delivery} (hattempt : ∀ id webhook, delivery = .job id webhook →
      (w.tasks i).attempt = some (id, webhook))
      (hprobe : ∀ webhook rest probed ticket, delivery = .probe webhook rest probed ticket →
        (w.tasks i).slot host = some ⟨webhook.domain host, ticket⟩) :
      Held host ((w.dropDelivery host delivery).setTask i .done) := by
    refine h.drop hslot hattempt fun webhook rest probed ticket heq => ?_
    rw [hprobe webhook rest probed ticket heq] at hslot
    cases hslot
  unfold World.crash
  cases hphase : w.tasks i with
  | adding data ticket =>
    have hreleased : Held host (w.release (data.webhook.domain host) ticket) := h.congr rfl rfl rfl
    exact hreleased.done hslot
  | sending delivery | reporting delivery ok | saving delivery ok record version =>
    apply hdelivery
    · rintro id webhook rfl
      rw [hphase]
      rfl
    · rintro webhook rest probed ticket rfl
      rw [hphase]
      rfl
  | _ => exact h.done hslot

lemma Held.resume (h : Held host w) {succeeds : Bool} (hsurvives : Survives host w (.resume i succeeds)) :
    Held host (w.resume host config i succeeds) := by
  unfold World.resume
  cases hphase : w.tasks i with
  | idle | done => exact h
  | checking call => exact h.check (by rw [hphase]; rfl) call
  | acquiring call => exact h.acquire (by rw [hphase]; rfl) call
  | claiming call record version => exact h.claim (by rw [hphase]; rfl) record
  | adding data ticket => exact h.add hphase hsurvives
  | sending delivery =>
    apply h.setTask i
    · rw [hphase]
      cases delivery <;> exact .inr rfl
    · rw [hphase]
      cases delivery <;> exact .inl rfl
    · exact fun _ _ _ _ heq => nomatch heq
  | reporting delivery ok => exact h.report hphase
  | saving delivery ok record version => exact h.save hphase
  | routing id job =>
    have hslot : (w.tasks i).slot host = none := by rw [hphase]; rfl
    simp only [World.route]
    split_ifs
    · apply Held.done
      · exact h.congr rfl rfl rfl
      · exact hslot
    · exact h.goOn hslot rfl (by simp)
  | moving job =>
    have hslot : (w.tasks i).slot host = none := by rw [hphase]; rfl
    simp only [World.moveToDLQ]
    split_ifs
    · apply Held.done
      · exact h.congr rfl rfl rfl
      · exact hslot
    · exact h.done hslot

lemma Held.work (h : Held host w) (i : ℕ) (id : String) : Held host (w.work i id) := by
  unfold World.work
  split
  next job hphase hjob =>
    split_ifs with hactive
    · exact h
    · have hidle : (w.tasks i).attempt = none := by rw [hphase]; rfl
      refine h.mono (fun domain _ => ⟨rfl, fun holder _ hcarried => ?_⟩) ?_
        (h.attempted.start hidle hjob (by simpa using hactive))
      · refine (hcarried.setJob fun other hother hholds => ?_).setTask i fun heq => ?_
        · rw [hjob] at hother
          obtain rfl := Option.some.inj hother
          exact ⟨_, rfl, hholds⟩
        · have hheld : (w.tasks i).slot host = some holder := heq
          rw [hphase] at hheld
          cases hheld
      · intro j delivery ok record version hj
        by_cases hne : j = i
        · subst hne
          simp [World.setTask] at hj
        · simp only [World.setTask, Function.update_of_ne hne] at hj
          exact .inl hj
  next => exact h

lemma Held.step (h : Held host w) (hsurvives : Survives host w move) :
    Held host (step host config move w) := by
  cases move with
  | dispatch i data =>
    simp only [Deliveries.step]
    cases hphase : w.tasks i with
    | idle =>
      dsimp only
      split_ifs
      · have hnoted : Held host (w.note (.dispatched data)) := h.congr rfl rfl rfl
        apply hnoted.goOn _ rfl (by simp)
        simp [World.note, hphase, Phase.slot]
      · exact h
    | _ => exact h
  | runProbeCycle i webhooks =>
    simp only [Deliveries.step]
    cases hphase : w.tasks i with
    | idle => exact h.nextWebhook (by rw [hphase]; rfl) [] webhooks
    | _ => exact h
  | work i id => exact h.work i id
  | resume i succeeds => exact h.resume hsurvives
  | crash i => exact h.crash hsurvives
  | expire domain =>
    refine h.mono (fun other hprobing => ?_) (fun _ _ _ _ _ hj => .inl hj)
      (h.attempted.congr rfl fun _ => .inl rfl)
    have hne : other ≠ domain := by
      rintro rfl
      simp [Deliveries.step, World.write] at hprobing
    exact ⟨Function.update_of_ne hne .., fun holder _ hcarried => hcarried.congr rfl rfl⟩
  | forget id => exact h.congr rfl rfl rfl
  | wait elapsed => exact h.congr rfl rfl rfl

lemma Held.recoverable (h : Held host w) : Recoverable host config w where
  held := h.held
  recovers domain hopen hquiet hinterval := by
    have hprobing : (w.records domain).probing = false := by
      rw [← Bool.not_eq_true]
      intro hflag
      obtain ⟨holder, hdomain, ⟨i, hi⟩ | ⟨id, job, hjob, hslot⟩⟩ := h.held domain hflag
      · exact hquiet.1 i holder hi hdomain
      · obtain ⟨ticket, -, rfl⟩ := Option.map_eq_some_iff.mp hslot
        exact hquiet.2 id job hjob hdomain
    have hwins : (acquireProbeSlot config.toBreakerConfig (w.records domain) w.now).isSome := by
      rw [Option.isSome_iff_exists]
      exact ⟨_, acquireProbeSlot_eq_some.mpr ⟨hopen, hprobing, fun _ => hinterval, rfl⟩⟩
    exact ⟨canProbe_iff.mpr hwins, hwins⟩

/-- The flag of a domain is left set where no task and no job carries a slot. -/
lemma not_recoverable {moves : List (Move D)} {n : ℕ}
    (hflag : ((run (step host config) {} moves).records domain).probing = true)
    (htasks : ∀ move ∈ moves, ∀ j ∈ move.task, j < n)
    (hslots : ∀ j < n, ((run (step host config) {} moves).tasks j).slot host = none)
    (hjobs : ∀ data ∈ (run (step host config) {} moves).history.filterMap Event.dispatch,
      ((run (step host config) {} moves).jobs (data.jobId host)).isNone) :
    ¬ Recoverable host config (run (step host config) {} moves) := by
  intro h
  obtain ⟨holder, -, ⟨j, hj⟩ | ⟨id, job, hjob, -⟩⟩ := h.held domain hflag
  · by_cases hlt : j < n
    · rw [hslots j hlt] at hj
      cases hj
    · rw [tasks_run fun move hmove heq => hlt (htasks move hmove j heq)] at hj
      cases hj
  · obtain ⟨hdispatched, rfl⟩ := (known_run host config moves).jobs id job hjob
    have hnone := hjobs job.toJobData (List.mem_filterMap.mpr ⟨_, hdispatched, rfl⟩)
    rw [hjob] at hnone
    cases hnone

end Held

end StellarTags.Webhooks.Deliveries
