import Mathlib.Data.List.Basic
import StellarTags.Webhooks.Deliveries

/-! Who holds the probe slot of a domain, and how far apart it is won. -/

namespace StellarTags.Webhooks.Deliveries

open Library.Runs

section Condition

variable {D : Type} (host : Host) (config : Config)

/-- The slot of a domain has one holder, and is not won again within the interval. -/
structure SingleProbe (w : World D) : Prop where
  single : ∀ domain, (w.records domain).state ≠ .CLOSED →
    (w.holders.filter fun holder => holder.domain = domain).length ≤ 1
  spaced : w.wins.Pairwise fun a b =>
    a.domain = b.domain → a.time + config.probeInterval ≤ b.time

/-- The slot is asked for no earlier when half open than when open; nobody has written a breaker's
record between the read and the write of another; and where somebody holds the slot, nobody else's
outcome is written, nor do the keys expire. -/
def Alone (w : World D) (move : Move D) : Prop :=
  match move with
  | .resume i _ =>
    match w.tasks i with
    | .acquiring call =>
      let record := w.records (call.webhook.domain host)
      record.state = .HALF_OPEN → record.probing = false →
        record.lastProbeTime + config.probeInterval ≤ w.now
    | .claiming call _ version => w.writes (call.webhook.domain host) = version
    | .saving delivery _ _ version =>
      let domain := delivery.webhook.domain host
      w.writes domain = version ∧ ∀ holder ∈ w.holders, holder.domain = domain →
        w.ticket delivery = some holder.ticket
    | _ => True
  | .expire domain => ∀ holder ∈ w.holders, holder.domain ≠ domain
  | _ => True

instance (w : World D) (move : Move D) : Decidable (Alone host config w move) :=
  match move with
  | .resume i _ => by
    dsimp only [Alone]
    exact match w.tasks i with
    | .acquiring .. | .claiming .. | .saving .. => inferInstance
    | .idle | .checking .. | .adding .. | .sending .. | .reporting .. | .routing .. | .moving ..
    | .done => inferInstance
  | .expire domain => inferInstanceAs (Decidable (∀ holder ∈ w.holders, holder.domain ≠ domain))
  | .dispatch .. | .runProbeCycle .. | .work .. | .crash .. | .forget .. | .wait .. => instDecidableTrue

end Condition

section Slots

variable {D : Type} {host : Host} {config : Config} {w next : World D} {move : Move D} {i : ℕ}
  {domain : String} {record : BreakerRecord} {phase : Phase D} {call : Call D} {delivery : Delivery}

/-- What a task knows of the record that it is about to write, if nobody has written it since. -/
def Knows (host : Host) (config : Config) (w : World D) : Phase D → Prop
  | .claiming call record version =>
    let domain := call.webhook.domain host
    record.state = .HALF_OPEN ∧ record.probing = true ∧ record.lastProbeTime ≤ w.now ∧
      version ≤ w.writes domain ∧ (version = w.writes domain →
        (∀ holder ∈ w.holders, holder.domain ≠ domain) ∧
          ∀ win ∈ w.wins, win.domain = domain → win.time + config.probeInterval ≤ record.lastProbeTime)
  | .saving delivery _ record version =>
    let domain := delivery.webhook.domain host
    version ≤ w.writes domain ∧ (version = w.writes domain → record.state ≠ .CLOSED →
      ∀ win ∈ w.wins, win.domain = domain → win.time ≤ record.lastProbeTime)
  | _ => True

/-- Who holds the slot of a domain holds it alone, and the record says so. -/
structure Slots (host : Host) (config : Config) (w : World D) : Prop where
  slot : ∀ holder ∈ w.holders, (w.records holder.domain).state = .HALF_OPEN ∧
    (w.records holder.domain).probing = true
  single : ∀ domain, (w.holders.filter fun holder => holder.domain = domain).length ≤ 1
  since : ∀ win ∈ w.wins, (w.records win.domain).state ≠ .CLOSED →
    win.time ≤ (w.records win.domain).lastProbeTime
  past : ∀ win ∈ w.wins, win.time ≤ w.now
  spaced : w.wins.Pairwise fun a b => a.domain = b.domain → a.time + config.probeInterval ≤ b.time
  knows : ∀ i, Knows host config w (w.tasks i)

/-- What was known of a record is known until it is written. -/
lemma Knows.mono (h : Knows host config w phase) (hnow : w.now ≤ next.now)
    (hwrites : ∀ domain, w.writes domain < next.writes domain ∨ next.writes domain = w.writes domain ∧
      (∀ holder ∈ next.holders, holder.domain = domain → holder ∈ w.holders) ∧
      ∀ win ∈ next.wins, win.domain = domain → win ∈ w.wins) : Knows host config next phase := by
  cases phase with
  | claiming call record version =>
    obtain ⟨hstate, hprobing, hpast, hle, hknown⟩ := h
    obtain hlt | ⟨heq, hholders, hwins⟩ := hwrites (call.webhook.domain host)
    · refine ⟨hstate, hprobing, Nat.le_trans hpast hnow, by omega, fun hsame => ?_⟩
      omega
    · refine ⟨hstate, hprobing, Nat.le_trans hpast hnow, heq ▸ hle, fun hsame => ?_⟩
      obtain ⟨hnone, hspaced⟩ := hknown (hsame.trans heq)
      exact ⟨fun holder hmem hdomain => hnone holder (hholders holder hmem hdomain) hdomain,
        fun win hmem hdomain => hspaced win (hwins win hmem hdomain) hdomain⟩
  | saving delivery ok record version =>
    obtain ⟨hle, hknown⟩ := h
    obtain hlt | ⟨heq, -, hwins⟩ := hwrites (delivery.webhook.domain host)
    · refine ⟨by omega, fun hsame => ?_⟩
      omega
    · exact ⟨heq ▸ hle, fun hsame hopen win hmem hdomain =>
        hknown (hsame.trans heq) hopen win (hwins win hmem hdomain) hdomain⟩
  | _ => trivial

lemma Slots.mono (h : Slots host config w) (hrecords : next.records = w.records)
    (hwrites : next.writes = w.writes) (hnow : w.now ≤ next.now) (hwins : next.wins = w.wins)
    (hholders : next.holders.Sublist w.holders)
    (htasks : ∀ i, next.tasks i = w.tasks i ∨ Knows host config w (next.tasks i)) :
    Slots host config next where
  slot holder hmem := by
    rw [hrecords]
    exact h.slot holder (hholders.subset hmem)
  single domain := Nat.le_trans (hholders.filter _).length_le (h.single domain)
  since := by
    rw [hwins, hrecords]
    exact h.since
  past := by
    rw [hwins]
    exact fun win hmem => Nat.le_trans (h.past win hmem) hnow
  spaced := by
    rw [hwins]
    exact h.spaced
  knows i := by
    have hbefore : Knows host config w (next.tasks i) := by
      obtain heq | hknows := htasks i
      · rw [heq]
        exact h.knows i
      · exact hknows
    apply hbefore.mono hnow
    intro domain
    rw [hwrites, hwins]
    exact .inr ⟨rfl, fun holder hmem _ => hholders.subset hmem, fun win hmem _ => hmem⟩

lemma Slots.write (h : Slots host config w) (hnone : ∀ holder ∈ w.holders, holder.domain ≠ domain)
    (hsince : record.state ≠ .CLOSED → ∀ win ∈ w.wins, win.domain = domain →
      win.time ≤ record.lastProbeTime) : Slots host config (w.write domain record) where
  slot holder hmem := by
    simp only [World.write, Function.update_of_ne (hnone holder hmem)]
    exact h.slot holder hmem
  single := h.single
  since win hmem := by
    by_cases hdomain : win.domain = domain
    · simp only [World.write, hdomain, Function.update_self]
      exact fun hopen => hsince hopen win hmem hdomain
    · simp only [World.write, Function.update_of_ne hdomain]
      exact h.since win hmem
  past := h.past
  spaced := h.spaced
  knows i := by
    have hnow : w.now ≤ (w.write domain record).now := Nat.le_refl _
    refine (h.knows i).mono hnow fun other => ?_
    by_cases hother : other = domain
    · subst hother
      exact .inl (by simp [World.write])
    · exact .inr ⟨Function.update_of_ne hother .., fun _ hmem _ => hmem, fun _ hmem _ => hmem⟩

lemma Slots.setTask (h : Slots host config w) (i : ℕ) (hknows : Knows host config w phase) :
    Slots host config (w.setTask i phase) := by
  refine h.mono rfl rfl (Nat.le_refl _) rfl (List.Sublist.refl _) fun j => ?_
  by_cases hj : j = i
  · subst hj
    exact .inr (by simpa [World.setTask] using hknows)
  · exact .inl (Function.update_of_ne hj ..)

lemma Slots.note (h : Slots host config w) (event : Event D) : Slots host config (w.note event) :=
  h.mono rfl rfl (Nat.le_refl _) rfl (List.Sublist.refl _) fun _ => .inl rfl

lemma Slots.setJob (h : Slots host config w) (id : String) (job : Option (Job D)) :
    Slots host config (w.setJob id job) :=
  h.mono rfl rfl (Nat.le_refl _) rfl (List.Sublist.refl _) fun _ => .inl rfl

lemma Slots.release (h : Slots host config w) (domain : String) (ticket : Option ℕ) :
    Slots host config (w.release domain ticket) :=
  h.mono rfl rfl (Nat.le_refl _) rfl List.filter_sublist fun _ => .inl rfl

lemma knows_nextWebhook (probed : List String) (webhooks : List Webhook) :
    Knows host config w (nextWebhook host probed webhooks) :=
  nextWebhook_rule (P := Knows host config w) trivial (fun _ _ _ => trivial) probed webhooks

lemma Slots.halt (h : Slots host config w) (i : ℕ) (call : Call D) :
    Slots host config (w.halt host i call) := by
  cases call with
  | enqueue data => exact (h.note _).setTask i trivial
  | cycle webhook rest probed => exact h.setTask i (knows_nextWebhook probed rest)

lemma Slots.check (h : Slots host config w) (i : ℕ) (call : Call D) :
    Slots host config (w.check host config i call) := by
  cases call with
  | enqueue data =>
    simp only [World.check]
    split_ifs
    · exact h.setTask i trivial
    · exact (h.note _).setTask i trivial
    · exact (h.note _).halt i _
  | cycle webhook rest probed =>
    simp only [World.check]
    split_ifs
    · exact h.setTask i trivial
    · exact h.halt i _

/-- The slot that is to be won is free, and the interval is over. -/
lemma Slots.acquire (h : Slots host config w)
    (hinterval : (w.records (call.webhook.domain host)).state = .HALF_OPEN →
      (w.records (call.webhook.domain host)).probing = false →
        (w.records (call.webhook.domain host)).lastProbeTime + config.probeInterval ≤ w.now) (i : ℕ) :
    Slots host config (w.acquire host config i call) := by
  simp only [World.acquire]
  cases hslot : acquireProbeSlot config.toBreakerConfig (w.records (call.webhook.domain host)) w.now with
  | none => exact h.halt i call
  | some claimed =>
    obtain ⟨hopen, hprobing, hcool, rfl⟩ := acquireProbeSlot_eq_some.mp hslot
    have hover : (w.records (call.webhook.domain host)).lastProbeTime + config.probeInterval ≤ w.now := by
      cases hstate : (w.records (call.webhook.domain host)).state with
      | CLOSED => exact absurd hstate hopen
      | OPEN => exact hcool hstate
      | HALF_OPEN => exact hinterval hstate hprobing
    refine h.setTask i ⟨rfl, rfl, Nat.le_refl _, Nat.le_refl _, fun _ => ⟨?_, ?_⟩⟩
    · intro holder hmem hdomain
      rw [← hdomain, (h.slot holder hmem).2] at hprobing
      cases hprobing
    · intro win hmem hdomain
      have hsince := h.since win hmem (hdomain ▸ hopen)
      rw [hdomain] at hsince
      exact Nat.le_trans (Nat.add_le_add_right hsince _) hover

lemma Slots.claim (h : Slots host config w) {version : ℕ}
    (hphase : w.tasks i = .claiming call record version)
    (hversion : w.writes (call.webhook.domain host) = version) :
    Slots host config (w.claim host i call record) := by
  have hknows := h.knows i
  rw [hphase] at hknows
  obtain ⟨hstate, hprobing, hpast, -, hknown⟩ := hknows
  obtain ⟨hnone, hspaced⟩ := hknown hversion.symm
  set domain := call.webhook.domain host
  set claimed : World D := { w.write domain record with
    wins := w.wins ++ [⟨domain, record.lastProbeTime⟩]
    holders := w.holders ++ [⟨domain, w.wins.length⟩] } with hclaimed
  suffices hslots : Slots host config claimed by
    apply hslots.setTask i
    cases call <;> trivial
  have hself : claimed.records domain = record := Function.update_self ..
  have hother {other : String} (hne : other ≠ domain) : claimed.records other = w.records other :=
    Function.update_of_ne hne ..
  constructor
  · intro holder hmem
    obtain hmem | hmem := List.mem_append.mp hmem
    · rw [hother (hnone holder hmem)]
      exact h.slot holder hmem
    · obtain rfl := List.mem_singleton.mp hmem
      rw [hself]
      exact ⟨hstate, hprobing⟩
  · intro other
    simp only [hclaimed, List.filter_append, List.length_append]
    by_cases hsame : domain = other
    · subst hsame
      have hnil : (w.holders.filter fun holder => holder.domain = domain) = [] := by
        rw [List.filter_eq_nil_iff]
        intro holder hmem
        simpa using hnone holder hmem
      rw [hnil]
      exact Nat.le_of_eq (by simp)
    · have hnil : ([⟨domain, w.wins.length⟩] : List Holder).filter (fun holder => holder.domain = other) = [] := by
        simp [hsame]
      rw [hnil]
      exact h.single other
  · intro win hmem
    obtain hmem | hmem := List.mem_append.mp hmem
    · by_cases hsame : win.domain = domain
      · rw [hsame, hself]
        exact fun _ => Nat.le_trans (Nat.le_add_right _ _) (hspaced win hmem hsame)
      · rw [hother hsame]
        exact h.since win hmem
    · obtain rfl := List.mem_singleton.mp hmem
      rw [hself]
      exact fun _ => Nat.le_refl _
  · intro win hmem
    obtain hmem | hmem := List.mem_append.mp hmem
    · exact h.past win hmem
    · obtain rfl := List.mem_singleton.mp hmem
      exact hpast
  · rw [hclaimed, List.pairwise_append]
    refine ⟨h.spaced, List.pairwise_singleton .., fun a ha b hb hsame => ?_⟩
    obtain rfl := List.mem_singleton.mp hb
    exact hspaced a ha hsame
  · intro j
    have hnow : w.now ≤ claimed.now := Nat.le_refl _
    refine (h.knows j).mono hnow fun other => ?_
    by_cases hne : other = domain
    · subst hne
      exact .inl (by simp [hclaimed, World.write])
    · refine .inr ⟨Function.update_of_ne hne .., fun holder hmem hdomain => ?_, fun win hmem hdomain => ?_⟩
      · obtain hmem | hmem := List.mem_append.mp hmem
        · exact hmem
        · rw [List.mem_singleton.mp hmem] at hdomain
          exact absurd hdomain.symm hne
      · obtain hmem | hmem := List.mem_append.mp hmem
        · exact hmem
        · rw [List.mem_singleton.mp hmem] at hdomain
          exact absurd hdomain.symm hne

lemma Slots.add (h : Slots host config w) (i : ℕ) (data : JobData D) (ticket : Option ℕ)
    (succeeds : Bool) : Slots host config (w.add host i data ticket succeeds) := by
  simp only [World.add]
  split_ifs
  · exact (h.setJob _ _).setTask i trivial
  · exact (h.release _ _).setTask i trivial

lemma Slots.report (h : Slots host config w) (i : ℕ) (delivery : Delivery) (ok : Bool) :
    Slots host config (w.report host config i delivery ok) := by
  refine h.setTask i ⟨Nat.le_refl _, fun _ hopen win hmem hdomain => ?_⟩
  have hsince := h.since win hmem
  rw [hdomain] at hsince
  cases ok with
  | true =>
    simp only [if_true] at hopen ⊢
    rw [handleDeliverySuccess_lastProbeTime]
    exact hsince (handleDeliverySuccess_state hopen)
  | false =>
    simp only [Bool.false_eq_true, if_false] at hopen ⊢
    obtain hnew | ⟨hbefore, hsame⟩ := handleDeliveryFailure_lastProbeTime rfl hopen
    · rw [hnew]
      exact h.past win hmem
    · rw [hsame]
      exact hsince hbefore

lemma Slots.finish (h : Slots host config w) (i : ℕ) (delivery : Delivery) (ok : Bool) :
    Slots host config (w.finish host config i delivery ok) := by
  cases delivery with
  | probe webhook rest probed ticket => exact h.setTask i (knows_nextWebhook probed rest)
  | job id webhook =>
    simp only [World.finish]
    cases w.jobs id with
    | none => exact h.setTask i trivial
    | some job =>
      have hgone : Slots host config { w.setJob id none with finished := id :: w.finished } :=
        (h.setJob id none).mono rfl rfl (Nat.le_refl _) rfl (List.Sublist.refl _) fun _ => .inl rfl
      dsimp only
      split_ifs
      · exact (hgone.note _).setTask i trivial
      · exact (h.setJob id _).setTask i trivial
      · exact hgone.setTask i trivial

lemma Slots.save (h : Slots host config w) {ok : Bool} {version : ℕ}
    (hphase : w.tasks i = .saving delivery ok record version)
    (hversion : w.writes (delivery.webhook.domain host) = version)
    (halone : ∀ holder ∈ w.holders, holder.domain = delivery.webhook.domain host →
      w.ticket delivery = some holder.ticket) :
    Slots host config (w.save host config i delivery ok record) := by
  have hknows := h.knows i
  rw [hphase] at hknows
  have hsince := hknows.2 hversion.symm
  apply Slots.finish
  apply (h.release _ _).write
  · intro holder hmem hdomain
    obtain ⟨hmem, hkept⟩ := List.mem_filter.mp hmem
    simp [hdomain, halone holder hmem hdomain] at hkept
  · exact hsince

lemma Slots.step (h : Slots host config w) (halone : Alone host config w move) :
    Slots host config (step host config move w) := by
  have hframe {next : World D} (hrecords : next.records = w.records) (hwrites : next.writes = w.writes)
      (hnow : w.now ≤ next.now) (hwins : next.wins = w.wins) (hholders : next.holders = w.holders)
      (htasks : next.tasks = w.tasks) : Slots host config next :=
    h.mono hrecords hwrites hnow hwins (hholders ▸ List.Sublist.refl _) fun _ => .inl (htasks ▸ rfl)
  cases move with
  | dispatch i data =>
    simp only [Deliveries.step]
    cases w.tasks i with
    | idle =>
      dsimp only
      split_ifs
      · exact (h.note _).setTask i trivial
      · exact h
    | _ => exact h
  | runProbeCycle i webhooks =>
    simp only [Deliveries.step]
    cases w.tasks i with
    | idle => exact h.setTask i (knows_nextWebhook [] webhooks)
    | _ => exact h
  | work i id =>
    simp only [Deliveries.step, World.work]
    split
    · split_ifs
      · exact h
      · exact (h.setJob id _).setTask i trivial
    · exact h
  | resume i succeeds =>
    simp only [Deliveries.step, World.resume]
    simp only [Alone] at halone
    cases hphase : w.tasks i with
    | idle | done => exact h
    | checking call => exact h.check i call
    | acquiring call =>
      rw [hphase] at halone
      exact h.acquire halone i
    | claiming call record version =>
      rw [hphase] at halone
      exact h.claim hphase halone
    | adding data ticket => exact h.add i data ticket succeeds
    | sending delivery => exact h.setTask i trivial
    | reporting delivery ok => exact h.report i delivery ok
    | saving delivery ok record version =>
      rw [hphase] at halone
      exact h.save hphase halone.1 halone.2
    | routing id job =>
      simp only [World.route]
      split_ifs
      · apply Slots.setTask
        · exact hframe rfl rfl (Nat.le_refl _) rfl rfl rfl
        · trivial
      · exact h.setTask i trivial
    | moving job =>
      simp only [World.moveToDLQ]
      split_ifs
      · apply Slots.setTask
        · exact hframe rfl rfl (Nat.le_refl _) rfl rfl rfl
        · trivial
      · exact h.setTask i trivial
  | crash i =>
    have hdrop (delivery : Delivery) : Slots host config ((w.dropDelivery host delivery).setTask i .done) := by
      cases delivery with
      | job id webhook => exact (h.setJob id _).setTask i trivial
      | probe webhook rest probed ticket => exact (h.release _ _).setTask i trivial
    simp only [Deliveries.step, World.crash]
    cases w.tasks i with
    | adding data ticket => exact (h.release _ _).setTask i trivial
    | sending delivery | reporting delivery ok | saving delivery ok record version => exact hdrop delivery
    | _ => exact h.setTask i trivial
  | expire domain =>
    apply h.write halone
    exact fun hclosed => absurd rfl hclosed
  | forget id => exact hframe rfl rfl (Nat.le_refl _) rfl rfl rfl
  | wait elapsed => exact hframe rfl rfl (Nat.le_add_right _ _) rfl rfl rfl

end Slots

end StellarTags.Webhooks.Deliveries
