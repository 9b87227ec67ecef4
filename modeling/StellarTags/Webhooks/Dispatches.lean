import Mathlib.Data.List.Basic
import StellarTags.Webhooks.Deliveries

/-! Where the event of a dispatch is, from the dispatch on. -/

namespace StellarTags.Webhooks.Deliveries

open Library.Runs

section Condition

variable {D : Type} (host : Host)

/-- The event is still to be queued, is queued or tried again, is delivered or is a dead letter: for the
webhook, with a payload that it was dispatched with. -/
def InHand (w : World D) (data : JobData D) : Prop :=
  ∃ kept : JobData D, kept.webhook.id = data.webhook.id ∧ kept.payload.eventId = data.payload.eventId ∧
    .dispatched kept ∈ w.history ∧
    ((∃ i, (w.tasks i).data = some kept) ∨ (∃ id job, w.jobs id = some job ∧ job.toJobData = kept) ∨
      .delivered kept ∈ w.history ∨ ∃ letter ∈ w.letters, letter.payload = kept)

/-- The check of the breaker refused to queue the delivery, which is not queued. -/
def Halted (w : World D) (data : JobData D) : Prop :=
  .halted data ∈ w.history ∧ ∃ state, state ≠ .CLOSED ∧ .refused data state ∈ w.history

/-- No process crashes, and what is asked of the queues succeeds. -/
def Smooth (w : World D) (move : Move D) : Prop :=
  match move with
  | .resume i succeeds =>
    match w.tasks i with
    | .adding _ _ | .routing _ _ => succeeds = true
    | _ => True
  | .crash _ => False
  | _ => True

instance (w : World D) (move : Move D) : Decidable (Smooth w move) :=
  match move with
  | .resume i _ => by
    dsimp only [Smooth]
    exact match w.tasks i with
    | .adding .. | .routing .. => inferInstance
    | .idle | .checking .. | .acquiring .. | .claiming .. | .sending .. | .reporting .. | .saving ..
    | .moving .. | .done => inferInstance
  | .crash _ => instDecidableFalse
  | .dispatch .. | .runProbeCycle .. | .work .. | .expire .. | .forget .. | .wait .. => instDecidableTrue

end Condition

section Stored

variable {D : Type} {host : Host} {config : Config} {w next : World D} {move : Move D} {i : ℕ}
  {id : String} {phase : Phase D}

def Phase.asks : Phase D → Option (JobData D)
  | checking (.enqueue data) | acquiring (.enqueue data) | claiming (.enqueue data) _ _
  | adding data _ => some data
  | _ => none

/-- The job of the id is queued, or what became of it. -/
def Stored (host : Host) (w : World D) (id : String) : Prop :=
  (∃ job, w.jobs id = some job) ∨ (∃ i job, w.tasks i = .routing id job) ∨
    (∃ data, .delivered data ∈ w.history ∧ data.jobId host = id) ∨
      ∃ letter ∈ w.letters, letter.payload.jobId host = id

structure Kept (host : Host) (w : World D) : Prop where
  known : Known host w
  dispatched : ∀ data, .dispatched data ∈ w.history → .halted data ∈ w.history ∨
    (∃ i, (w.tasks i).asks = some data) ∨ Stored host w (data.jobId host)
  finished : ∀ id ∈ w.finished, Stored host w id
  halted : ∀ data, .halted data ∈ w.history → ∃ state, state ≠ .CLOSED ∧ .refused data state ∈ w.history
  acquiring : ∀ i data, w.tasks i = .acquiring (.enqueue data) →
    ∃ state, state ≠ .CLOSED ∧ .refused data state ∈ w.history

lemma Kept.task (h : Kept host w) (hknown : Known host next)
    (htasks : next.tasks = Function.update w.tasks i phase)
    (hhistory : ∀ event ∈ w.history, event ∈ next.history)
    (hletters : ∀ letter ∈ w.letters, letter ∈ next.letters)
    (hjobs : ∀ id job, w.jobs id = some job → Stored host next id)
    (hrouting : ∀ id job, w.tasks i = .routing id job → Stored host next id)
    (hdispatched : ∀ data, .dispatched data ∈ next.history →
      .dispatched data ∈ w.history ∨ phase.asks = some data)
    (hasks : ∀ data, (w.tasks i).asks = some data → .halted data ∈ next.history ∨
      phase.asks = some data ∨ Stored host next (data.jobId host))
    (hfinished : ∀ id ∈ next.finished, id ∈ w.finished ∨ Stored host next id)
    (hhalted : ∀ data, .halted data ∈ next.history → .halted data ∈ w.history ∨
      ∃ state, state ≠ .CLOSED ∧ .refused data state ∈ next.history)
    (hacquiring : ∀ data, phase = .acquiring (.enqueue data) →
      ∃ state, state ≠ .CLOSED ∧ .refused data state ∈ next.history) : Kept host next := by
  have hself : next.tasks i = phase := by rw [htasks, Function.update_self]
  have hother {j : ℕ} (hj : j ≠ i) : next.tasks j = w.tasks j := by
    rw [htasks, Function.update_of_ne hj]
  have hstored (id : String) (hid : Stored host w id) : Stored host next id := by
    obtain ⟨job, hjob⟩ | ⟨j, job, hj⟩ | ⟨data, hdata, rfl⟩ | ⟨letter, hletter, rfl⟩ := hid
    · exact hjobs id job hjob
    · by_cases hne : j = i
      · exact hrouting id job (hne ▸ hj)
      · exact .inr (.inl ⟨j, job, (hother hne).trans hj⟩)
    · exact .inr (.inr (.inl ⟨data, hhistory _ hdata, rfl⟩))
    · exact .inr (.inr (.inr ⟨letter, hletters letter hletter, rfl⟩))
  have hrefused {data : JobData D}
      (hdata : ∃ state, state ≠ BreakerState.CLOSED ∧ .refused data state ∈ w.history) :
      ∃ state, state ≠ .CLOSED ∧ .refused data state ∈ next.history :=
    hdata.imp fun state hstate => ⟨hstate.1, hhistory _ hstate.2⟩
  refine ⟨hknown, fun data hdata => ?_, fun id hid => ?_, fun data hdata => ?_, fun j data hj => ?_⟩
  · obtain hdata | hnew := hdispatched data hdata
    · obtain hhalt | ⟨j, hj⟩ | hid := h.dispatched data hdata
      · exact .inl (hhistory _ hhalt)
      · by_cases hne : j = i
        · exact (hasks data (hne ▸ hj)).imp_right fun hrest =>
            hrest.imp_left fun hphase => ⟨i, hself ▸ hphase⟩
        · exact .inr (.inl ⟨j, (hother hne).symm ▸ hj⟩)
      · exact .inr (.inr (hstored _ hid))
    · exact .inr (.inl ⟨i, hself ▸ hnew⟩)
  · obtain hid | hid := hfinished id hid
    · exact hstored id (h.finished id hid)
    · exact hid
  · obtain hbefore | hnew := hhalted data hdata
    · exact hrefused (h.halted data hbefore)
    · exact hnew
  · by_cases hne : j = i
    · subst hne
      exact hacquiring data (hself ▸ hj)
    · exact hrefused (h.acquiring j data ((hother hne).symm.trans hj))

/-- A step of a task that has nothing to queue or to store, and will have nothing. -/
lemma Kept.quiet (h : Kept host w) (hknown : Known host next)
    (htasks : next.tasks = Function.update w.tasks i phase) (hhistory : next.history = w.history)
    (hletters : next.letters = w.letters) (hfinished : next.finished = w.finished)
    (hjobs : ∀ id job, w.jobs id = some job → ∃ later, next.jobs id = some later)
    (hrouting : ∀ id job, w.tasks i ≠ .routing id job)
    (hasks : (w.tasks i).asks = none ∨ phase.asks = (w.tasks i).asks)
    (hacquiring : ∀ data, phase ≠ .acquiring (.enqueue data)) : Kept host next := by
  refine h.task hknown htasks (by simp [hhistory]) (by simp [hletters])
    (fun id job hjob => .inl (hjobs id job hjob)) (fun id job heq => absurd heq (hrouting id job))
    (fun data hdata => .inl (hhistory ▸ hdata)) (fun data hdata => ?_)
    (fun id hid => .inl (hfinished ▸ hid)) (fun data hdata => .inl (hhistory ▸ hdata))
    fun data heq => absurd heq (hacquiring data)
  obtain hnone | hsame := hasks
  · rw [hnone] at hdata
    cases hdata
  · exact .inr (.inl (hsame.trans hdata))

lemma Kept.congr (h : Kept host w) (hknown : Known host next) (htasks : next.tasks = w.tasks)
    (hjobs : next.jobs = w.jobs) (hletters : next.letters = w.letters)
    (hhistory : next.history = w.history) (hfinished : ∀ id ∈ next.finished, id ∈ w.finished) :
    Kept host next := by
  have hstored (id : String) (hid : Stored host w id) : Stored host next id := by
    unfold Stored
    rwa [htasks, hjobs, hletters, hhistory]
  refine ⟨hknown, ?_, fun id hid => hstored id (h.finished id (hfinished id hid)), ?_, ?_⟩
  · rw [htasks, hhistory]
    exact fun data hdata => (h.dispatched data hdata).imp_right fun hrest => hrest.imp_right (hstored _)
  · rw [hhistory]
    exact h.halted
  · rw [htasks, hhistory]
    exact h.acquiring

lemma nextWebhook_asks (probed : List String) (webhooks : List Webhook) (data : JobData D) :
    nextWebhook host probed webhooks ≠ .acquiring (.enqueue data) :=
  nextWebhook_rule (P := (· ≠ .acquiring (.enqueue data))) (fun heq => nomatch heq)
    (fun _ _ _ heq => nomatch heq) probed webhooks

lemma Kept.halt (h : Kept host w) {data : JobData D} (hasks : (w.tasks i).asks = some data)
    (hrefused : ∃ state, state ≠ .CLOSED ∧ .refused data state ∈ w.history) :
    Kept host (w.halt host i (.enqueue data)) := by
  have hhistory (event : Event D) (hevent : event ∈ w.history) :
      event ∈ (w.halt host i (.enqueue data)).history := List.mem_append_left _ hevent
  apply h.task (h.known.halt i _) rfl hhistory (fun _ hletter => hletter)
    (fun id job hjob => .inl ⟨job, hjob⟩)
  · intro id job heq
    rw [heq] at hasks
    cases hasks
  · intro other hother
    exact .inl (by simpa [World.halt, World.setTask, World.note] using hother)
  · intro other hother
    obtain rfl := Option.some.inj (hasks.symm.trans hother)
    exact .inl (List.mem_append_right _ (List.mem_singleton_self _))
  · exact fun id hid => .inl hid
  · intro other hother
    obtain hbefore | hnew := List.mem_append.mp hother
    · exact .inl hbefore
    · obtain rfl := Event.halted.inj (List.mem_singleton.mp hnew)
      exact .inr (hrefused.imp fun state hstate => ⟨hstate.1, hhistory _ hstate.2⟩)
  · rintro _ ⟨⟩

lemma Kept.refuse (h : Kept host w) (data : JobData D) (state : BreakerState) :
    Kept host (w.note (.refused data state)) := by
  have hhistory (event : Event D) (hevent : event ∈ w.history) :
      event ∈ (w.note (.refused data state)).history := List.mem_append_left _ hevent
  have hself : w.tasks = Function.update w.tasks 0 (w.tasks 0) := (Function.update_eq_self ..).symm
  apply h.task (h.known.note _ (by simp)) hself hhistory (fun _ hletter => hletter)
    (fun id job hjob => .inl ⟨job, hjob⟩) (fun id job heq => .inr (.inl ⟨0, job, heq⟩))
  · exact fun other hother => .inl (by simpa [World.note] using hother)
  · exact fun other hother => .inr (.inl hother)
  · exact fun id hid => .inl hid
  · exact fun other hother => .inl (by simpa [World.note] using hother)
  · intro other hother
    exact (h.acquiring 0 other hother).imp fun before hbefore => ⟨hbefore.1, hhistory _ hbefore.2⟩

lemma Kept.check (h : Kept host w) {call : Call D} (hphase : w.tasks i = .checking call) :
    Kept host (w.check host config i call) := by
  have hknown : Known host (w.resume host config i true) := h.known.resume i true
  simp only [World.resume, hphase] at hknown
  revert hknown
  cases call with
  | enqueue data =>
    have hasks : (w.tasks i).asks = some data := by rw [hphase]; rfl
    have hrouting (id : String) (job : Job D) : w.tasks i ≠ .routing id job := by simp [hphase]
    simp only [World.check]
    split_ifs with hallowed hprobe
    · intro hknown
      exact h.quiet hknown rfl rfl rfl rfl (fun _ job hjob => ⟨job, hjob⟩) hrouting (.inr hasks.symm) (by simp)
    all_goals
      have hopen : (w.records (data.webhook.domain host)).state ≠ .CLOSED :=
        fun hclosed => hallowed (allowed_iff.mpr hclosed)
      have hrefused := h.refuse data (w.records (data.webhook.domain host)).state
      have hnoted : ∃ state, state ≠ BreakerState.CLOSED ∧ .refused data state ∈
          (w.note (.refused data (w.records (data.webhook.domain host)).state)).history :=
        ⟨_, hopen, List.mem_append_right _ (List.mem_singleton_self _)⟩
    · intro hknown
      apply hrefused.task hknown rfl (fun _ hevent => hevent) (fun _ hletter => hletter)
        (fun id job hjob => .inl ⟨job, hjob⟩) (fun id job heq => absurd heq (hrouting id job))
      · exact fun other hother => .inl hother
      · exact fun other hother => .inr (.inl (hasks.symm.trans hother))
      · exact fun id hid => .inl hid
      · exact fun other hother => .inl hother
      · intro other heq
        obtain rfl := Call.enqueue.inj (Phase.acquiring.inj heq)
        exact hnoted
    · exact fun _ => hrefused.halt hasks hnoted
  | cycle webhook rest probed =>
    have hrouting (id : String) (job : Job D) : w.tasks i ≠ .routing id job := by simp [hphase]
    have hnone : (w.tasks i).asks = none := by rw [hphase]; rfl
    simp only [World.check]
    split_ifs
    · intro hknown
      exact h.quiet hknown rfl rfl rfl rfl (fun _ job hjob => ⟨job, hjob⟩) hrouting (.inl hnone) (by simp)
    · intro hknown
      exact h.quiet hknown rfl rfl rfl rfl (fun _ job hjob => ⟨job, hjob⟩) hrouting (.inl hnone)
        (nextWebhook_asks probed rest)

lemma Kept.acquire (h : Kept host w) {call : Call D} (hphase : w.tasks i = .acquiring call) :
    Kept host (w.acquire host config i call) := by
  have hknown : Known host (w.resume host config i true) := h.known.resume i true
  simp only [World.resume, hphase] at hknown
  revert hknown
  have hrouting (id : String) (job : Job D) : w.tasks i ≠ .routing id job := by simp [hphase]
  simp only [World.acquire]
  cases acquireProbeSlot config.toBreakerConfig (w.records (call.webhook.domain host)) w.now with
  | none =>
    cases call with
    | enqueue data =>
      have hasks : (w.tasks i).asks = some data := by rw [hphase]; rfl
      exact fun _ => h.halt hasks (h.acquiring i data hphase)
    | cycle webhook rest probed =>
      have hnone : (w.tasks i).asks = none := by rw [hphase]; rfl
      intro hknown
      exact h.quiet hknown rfl rfl rfl rfl (fun _ job hjob => ⟨job, hjob⟩) hrouting (.inl hnone)
        (nextWebhook_asks probed rest)
  | some claimed =>
    intro hknown
    apply h.quiet hknown rfl rfl rfl rfl (fun _ job hjob => ⟨job, hjob⟩) hrouting _ (by simp)
    rw [hphase]
    cases call <;> exact .inr rfl

lemma Kept.add (h : Kept host w) {data : JobData D} {ticket : Option ℕ}
    (hphase : w.tasks i = .adding data ticket) : Kept host (w.add host i data ticket true) := by
  have hknown : Known host (w.resume host {} i true) := h.known.resume i true
  simp only [World.resume, hphase] at hknown
  revert hknown
  have hrouting (id : String) (job : Job D) : w.tasks i ≠ .routing id job := by simp [hphase]
  have hasks {other : JobData D} (hother : (w.tasks i).asks = some other) : other = data := by
    rw [hphase] at hother
    exact (Option.some.inj hother).symm
  simp only [World.add]
  split_ifs with haccepted
  · intro hknown
    have hjobs (id : String) (job : Job D) (hjob : w.jobs id = some job) :
        ((w.setJob (data.jobId host) (some { data with ticket })).setTask i .done).jobs id = some job := by
      have hne : id ≠ data.jobId host := by
        rintro rfl
        rw [haccepted.2.1] at hjob
        cases hjob
      simpa only [World.setTask, World.setJob, Function.update_of_ne hne] using hjob
    apply h.task hknown rfl (fun _ hevent => hevent) (fun _ hletter => hletter)
      (fun id job hjob => .inl ⟨job, hjobs id job hjob⟩) (fun id job heq => absurd heq (hrouting id job))
    · exact fun other hother => .inl hother
    · intro other hother
      obtain rfl := hasks hother
      exact .inr (.inr (.inl ⟨{ other with ticket }, Function.update_self ..⟩))
    · exact fun id hid => .inl hid
    · exact fun other hother => .inl hother
    · rintro _ ⟨⟩
  -- the queue has the job already, or has had it
  · intro hknown
    have hstored : Stored host w (data.jobId host) := by
      by_cases hnone : w.jobs (data.jobId host) = none
      · apply h.finished
        by_contra hfresh
        exact haccepted ⟨trivial, hnone, hfresh⟩
      · obtain ⟨job, hjob⟩ := Option.ne_none_iff_exists'.mp hnone
        exact .inl ⟨job, hjob⟩
    have hkept : Stored host ((w.release (data.webhook.domain host) ticket).setTask i .done)
        (data.jobId host) := by
      refine hstored.imp_right fun hrest => hrest.imp_left <| Exists.imp fun j => Exists.imp fun job hj => ?_
      have hne : j ≠ i := by
        rintro rfl
        exact hrouting _ job hj
      simpa only [World.setTask, World.release, Function.update_of_ne hne] using hj
    apply h.task hknown rfl (fun _ hevent => hevent) (fun _ hletter => hletter)
      (fun id job hjob => .inl ⟨job, hjob⟩) (fun id job heq => absurd heq (hrouting id job))
    · exact fun other hother => .inl hother
    · intro other hother
      obtain rfl := hasks hother
      exact .inr (.inr hkept)
    · exact fun id hid => .inl hid
    · exact fun other hother => .inl hother
    · rintro _ ⟨⟩

lemma Kept.save (h : Kept host w) {delivery : Delivery} {ok : Bool} {record : BreakerRecord}
    {version : ℕ} (hphase : w.tasks i = .saving delivery ok record version) :
    Kept host (w.save host config i delivery ok record) := by
  have hknown : Known host (w.resume host config i true) := h.known.resume i true
  simp only [World.resume, hphase] at hknown
  revert hknown
  have hrouting (id : String) (job : Job D) : w.tasks i ≠ .routing id job := by simp [hphase]
  have hnone : (w.tasks i).asks = none := by rw [hphase]; rfl
  have hasks {P : JobData D → Prop} (data : JobData D) (hdata : (w.tasks i).asks = some data) : P data := by
    rw [hnone] at hdata
    cases hdata
  cases delivery with
  | probe webhook rest probed ticket =>
    intro hknown
    exact h.quiet hknown rfl rfl rfl rfl (fun _ job hjob => ⟨job, hjob⟩) hrouting (.inl hnone)
      (nextWebhook_asks probed rest)
  | job id webhook =>
    cases hjob : w.jobs id with
    | none =>
      have hsave : w.save host config i (.job id webhook) ok record =
          ((w.release (webhook.domain host) (w.ticket (.job id webhook))).write
            (webhook.domain host) record).setTask i .done := by
        simp only [World.save, World.finish, Delivery.webhook]
        rw [show ((w.release (webhook.domain host) (w.ticket (.job id webhook))).write
          (webhook.domain host) record).jobs id = none from hjob]
      rw [hsave]
      intro hknown
      exact h.quiet hknown rfl rfl rfl rfl (fun _ job hjob => ⟨job, hjob⟩) hrouting (.inl hnone) (by simp)
    | some job =>
      have hid := (h.known.jobs id job hjob).2
      have hfound : ((w.release (webhook.domain host) (w.ticket (.job id webhook))).write
          (webhook.domain host) record).jobs id = some job := hjob
      have hother {later : Option (Job D)} {other : String} {found : Job D}
          (hne : other ≠ id) (hsome : w.jobs other = some found) :
          Function.update w.jobs id later other = some found := by
        rwa [Function.update_of_ne hne]
      simp only [World.save, World.finish, Delivery.webhook, hfound]
      split_ifs
      · intro hknown
        set next := World.setTask _ i .done
        have hdelivered : .delivered job.toJobData ∈ next.history :=
          List.mem_append_right _ (List.mem_singleton_self _)
        have hstored : Stored host next id := .inr (.inr (.inl ⟨_, hdelivered, hid.symm⟩))
        apply h.task hknown rfl (fun _ hevent => List.mem_append_left _ hevent) (fun _ hletter => hletter)
        · intro other found hsome
          by_cases hne : other = id
          · exact hne ▸ hstored
          · exact .inl ⟨found, hother hne hsome⟩
        · exact fun other found heq => absurd heq (hrouting other found)
        · intro data hdata
          obtain hdata | hdata := List.mem_append.mp hdata
          · exact .inl hdata
          · cases List.mem_singleton.mp hdata
        · exact hasks
        · intro other hmem
          obtain rfl | hmem := List.mem_cons.mp hmem
          · exact .inr hstored
          · exact .inl hmem
        · intro data hdata
          obtain hdata | hdata := List.mem_append.mp hdata
          · exact .inl hdata
          · cases List.mem_singleton.mp hdata
        · rintro _ ⟨⟩
      · intro hknown
        refine h.quiet hknown rfl rfl rfl rfl (fun other found hsome => ?_) hrouting (.inl hnone) (by simp)
        by_cases hne : other = id
        · subst hne
          exact ⟨_, Function.update_self ..⟩
        · exact ⟨found, hother hne hsome⟩
      · intro hknown
        set next := World.setTask _ i (.routing id job)
        have hstored : Stored host next id := .inr (.inl ⟨i, job, Function.update_self ..⟩)
        apply h.task hknown rfl (fun _ hevent => hevent) (fun _ hletter => hletter)
        · intro other found hsome
          by_cases hne : other = id
          · exact hne ▸ hstored
          · exact .inl ⟨found, hother hne hsome⟩
        · exact fun other found heq => absurd heq (hrouting other found)
        · exact fun data hdata => .inl hdata
        · exact hasks
        · intro other hmem
          obtain rfl | hmem := List.mem_cons.mp hmem
          · exact .inr hstored
          · exact .inl hmem
        · exact fun data hdata => .inl hdata
        · rintro _ ⟨⟩

lemma Kept.route (h : Kept host w) {job : Job D} (hphase : w.tasks i = .routing id job)
    (hredis : config.redisConfigured = true) : Kept host (w.route config i id job true) := by
  have hknown : Known host (w.resume host config i true) := h.known.resume i true
  simp only [World.resume, hphase] at hknown
  revert hknown
  simp only [World.route, hredis, and_self, if_true]
  intro hknown
  have hnone : (w.tasks i).asks = none := by rw [hphase]; rfl
  apply h.task hknown rfl (fun _ hevent => hevent) (fun _ hletter => List.mem_cons_of_mem _ hletter)
    (fun id job hjob => .inl ⟨job, hjob⟩)
  · intro other later heq
    rw [hphase] at heq
    obtain ⟨rfl, rfl⟩ := Phase.routing.inj heq
    exact .inr (.inr (.inr ⟨_, List.mem_cons_self, (h.known.routing i id job hphase).symm⟩))
  · exact fun data hdata => .inl hdata
  · intro data hdata
    rw [hnone] at hdata
    cases hdata
  · exact fun id hid => .inl hid
  · exact fun data hdata => .inl hdata
  · rintro _ ⟨⟩

lemma Kept.resume (h : Kept host w) {succeeds : Bool} (hredis : config.redisConfigured = true)
    (hsmooth : Smooth w (.resume i succeeds)) : Kept host (w.resume host config i succeeds) := by
  have hknown : Known host (w.resume host config i succeeds) := h.known.resume i succeeds
  have hquiet {phase : Phase D} {next : World D} (hknown : Known host next)
      (htasks : next.tasks = Function.update w.tasks i phase) (hhistory : next.history = w.history)
      (hletters : next.letters = w.letters) (hfinished : next.finished = w.finished)
      (hjobs : next.jobs = w.jobs) (hrouting : ∀ id job, w.tasks i ≠ .routing id job)
      (hasks : (w.tasks i).asks = none ∨ phase.asks = (w.tasks i).asks)
      (hacquiring : ∀ data, phase ≠ .acquiring (.enqueue data)) : Kept host next :=
    h.quiet hknown htasks hhistory hletters hfinished (fun _ job hjob => ⟨job, hjobs ▸ hjob⟩) hrouting hasks
      hacquiring
  revert hknown
  unfold World.resume
  simp only [Smooth] at hsmooth
  cases hphase : w.tasks i with
  | idle | done => exact fun _ => h
  | checking call => exact fun _ => h.check hphase
  | acquiring call => exact fun _ => h.acquire hphase
  | claiming call record version =>
    intro hknown
    apply hquiet hknown rfl rfl rfl rfl rfl (by simp [hphase])
    · rw [hphase]
      cases call with
      | enqueue data => exact .inr rfl
      | cycle webhook rest probed => exact .inl rfl
    · cases call <;> simp [Call.won]
  | adding data ticket =>
    rw [hphase] at hsmooth
    obtain rfl := hsmooth
    exact fun _ => h.add hphase
  | sending delivery | reporting delivery ok =>
    exact fun hknown => hquiet hknown rfl rfl rfl rfl rfl (by simp [hphase])
      (.inl (by rw [hphase]; rfl)) (by simp)
  | saving delivery ok record version => exact fun _ => h.save hphase
  | routing id job =>
    rw [hphase] at hsmooth
    obtain rfl := hsmooth
    exact fun _ => h.route hphase hredis
  | moving job =>
    have hnone : (w.tasks i).asks = none := by rw [hphase]; rfl
    simp only [World.moveToDLQ]
    split_ifs <;>
      exact fun hknown => hquiet hknown rfl rfl rfl rfl rfl (by simp [hphase]) (.inl hnone) (by simp)

lemma Kept.step (h : Kept host w) (hredis : config.redisConfigured = true) (hsmooth : Smooth w move) :
    Kept host (step host config move w) := by
  have hknown : Known host (Deliveries.step host config move w) := h.known.step move
  revert hknown
  cases move with
  | dispatch i data =>
    simp only [Deliveries.step]
    cases hphase : w.tasks i with
    | idle =>
      have hidle {P : JobData D → Prop} (other : JobData D) (hother : (w.tasks i).asks = some other) :
          P other := by
        rw [hphase] at hother
        cases hother
      dsimp only
      split_ifs
      · intro hknown
        apply h.task hknown rfl (fun _ hevent => List.mem_append_left _ hevent) (fun _ hletter => hletter)
          (fun id job hjob => .inl ⟨job, hjob⟩) (fun id job heq => absurd (hphase.symm.trans heq) (by simp))
        · intro other hother
          obtain hbefore | hnew := List.mem_append.mp hother
          · exact .inl hbefore
          · exact .inr (congrArg some (Event.dispatched.inj (List.mem_singleton.mp hnew)).symm)
        · exact hidle
        · exact fun id hid => .inl hid
        · exact fun other hother => .inl (by simpa [World.setTask, World.note] using hother)
        · rintro _ ⟨⟩
      · exact fun _ => h
    | _ => exact fun _ => h
  | runProbeCycle i webhooks =>
    simp only [Deliveries.step]
    cases hphase : w.tasks i with
    | idle =>
      intro hknown
      exact h.quiet hknown rfl rfl rfl rfl (fun _ job hjob => ⟨job, hjob⟩) (by simp [hphase])
        (.inl (by rw [hphase]; rfl)) (nextWebhook_asks [] webhooks)
    | _ => exact fun _ => h
  | work i id =>
    simp only [Deliveries.step, World.work]
    split
    next job hphase hjob =>
      split_ifs
      · exact fun _ => h
      · intro hknown
        refine h.quiet hknown rfl rfl rfl rfl (fun other found hsome => ?_) (by simp [hphase])
          (.inl (by rw [hphase]; rfl)) (by simp)
        by_cases hne : other = id
        · subst hne
          exact ⟨_, Function.update_self ..⟩
        · exact ⟨found, by simpa only [World.setTask, World.setJob, Function.update_of_ne hne] using hsome⟩
    next => exact fun _ => h
  | resume i succeeds => exact fun _ => h.resume hredis hsmooth
  | crash i => exact absurd hsmooth id
  | expire domain => exact fun hknown => h.congr hknown rfl rfl rfl rfl fun _ hid => hid
  | forget id => exact fun hknown => h.congr hknown rfl rfl rfl rfl fun _ hid => List.mem_of_mem_erase hid
  | wait elapsed => exact fun hknown => h.congr hknown rfl rfl rfl rfl fun _ hid => hid

lemma separated_inj {a a' b b' : List Char} {c : Char} (ha : c ∉ a) (ha' : c ∉ a')
    (h : a ++ c :: b = a' ++ c :: b') : a = a' ∧ b = b' := by
  induction a generalizing a' with
  | nil =>
    cases a' with
    | nil => exact ⟨rfl, (List.cons.inj h).2⟩
    | cons d rest => exact absurd (List.mem_cons.mpr (.inl (List.cons.inj h).1)) ha'
  | cons d rest ih =>
    cases a' with
    | nil => exact absurd (List.mem_cons.mpr (.inl (List.cons.inj h).1.symm)) ha
    | cons e rest' =>
      obtain ⟨rfl, hrest⟩ := List.cons.inj h
      obtain ⟨rfl, hb⟩ := ih (fun hmem => ha (List.mem_cons_of_mem _ hmem))
        (fun hmem => ha' (List.mem_cons_of_mem _ hmem)) hrest
      exact ⟨rfl, hb⟩

lemma jobId_inj (hsha256 : Function.Injective host.sha256) {data data' : JobData D}
    (h : data.jobId host = data'.jobId host) :
    data.webhook.id = data'.webhook.id ∧ data.payload.eventId = data'.payload.eventId := by
  have hkeys := congrArg String.toList (hsha256 h)
  simp only [String.toList_append] at hkeys
  have hsplit : data.webhook.id.toList ++ ':' :: data.payload.eventId.toList =
      data'.webhook.id.toList ++ ':' :: data'.payload.eventId.toList := by simpa using hkeys
  obtain ⟨hwebhook, hevent⟩ := separated_inj data.webhook.id_plain data'.webhook.id_plain hsplit
  exact ⟨String.toList_inj.mp hwebhook, String.toList_inj.mp hevent⟩

lemma Kept.inHand (h : Kept host w) (hsha256 : Function.Injective host.sha256) {data : JobData D}
    (hstored : Stored host w (data.jobId host)) : InHand w data := by
  obtain ⟨job, hjob⟩ | ⟨i, job, hi⟩ | ⟨kept, hkept, hid⟩ | ⟨letter, hletter, hid⟩ := hstored
  · obtain ⟨hdispatched, hid⟩ := h.known.jobs _ job hjob
    obtain ⟨hwebhook, hevent⟩ := jobId_inj hsha256 hid.symm
    exact ⟨job.toJobData, hwebhook, hevent, hdispatched, .inr (.inl ⟨_, job, hjob, rfl⟩)⟩
  · have hdata : (w.tasks i).data = some job.toJobData := by rw [hi]; rfl
    obtain ⟨hwebhook, hevent⟩ := jobId_inj hsha256 (h.known.routing i _ job hi).symm
    exact ⟨job.toJobData, hwebhook, hevent, h.known.tasks i _ hdata, .inl ⟨i, hdata⟩⟩
  · obtain ⟨hwebhook, hevent⟩ := jobId_inj hsha256 hid
    exact ⟨kept, hwebhook, hevent, h.known.delivered kept hkept, .inr (.inr (.inl hkept))⟩
  · obtain ⟨hwebhook, hevent⟩ := jobId_inj hsha256 hid
    exact ⟨letter.payload, hwebhook, hevent, h.known.letters letter hletter,
      .inr (.inr (.inr ⟨letter, hletter, rfl⟩))⟩

lemma data_of_asks {data : JobData D} (h : phase.asks = some data) : phase.data = some data := by
  cases phase with
  | checking call | acquiring call | claiming call record version => cases call <;> exact h
  | adding other ticket => exact h
  | _ => cases h

/-- Every event that is dispatched stays in hand, but where its check met a breaker that was not closed
and the probe slot was not won. -/
theorem dispatches_kept (host : Host) (hsha256 : Function.Injective host.sha256) (config : Config)
    (hredis : config.redisConfigured = true) (moves : List (Move D))
    (hsmooth : Along (step host config) Smooth {} moves) (data : JobData D)
    (hdispatched : .dispatched data ∈ (run (step host config) {} moves).history) :
    InHand (run (step host config) {} moves) data ∨ Halted (run (step host config) {} moves) data := by
  have hkept : Kept host (run (step host config) {} moves) := by
    apply run_invariant (I := Kept host) (fun _ _ h hmove => h.step hredis hmove) _ hsmooth
    refine ⟨known_run host config [], by simp, by simp, by simp, ?_⟩
    exact fun _ _ heq => nomatch heq
  obtain hhalted | ⟨i, hi⟩ | hstored := hkept.dispatched data hdispatched
  · exact .inr ⟨hhalted, hkept.halted data hhalted⟩
  · exact .inl ⟨data, rfl, rfl, hdispatched, .inl ⟨i, data_of_asks hi⟩⟩
  · exact .inl (hkept.inHand hsha256 hstored)

theorem dispatches_kept_sample :
    InHand (run (step Host.plain {}) {} (opening ++ [.resume 5 true])) JobData.payment ∨
      Halted (run (step Host.plain {}) {} (opening ++ [.resume 5 true])) JobData.payment := by
  have hsha256 : Function.Injective Host.plain.sha256 := fun _ _ h => h
  apply dispatches_kept Host.plain hsha256 {} rfl
  · decide +kernel
  · decide +kernel

/-- Nothing of the event is in hand that no task, job, delivery or dead letter is of. -/
lemma not_inHand {moves : List (Move D)} {n : ℕ} {data : JobData D}
    (htasks : ∀ move ∈ moves, ∀ j ∈ move.task, j < n)
    (hdata : ∀ j < n, ∀ kept ∈ ((run (step host config) {} moves).tasks j).data,
      kept.payload.eventId ≠ data.payload.eventId)
    (hjobs : ∀ kept ∈ (run (step host config) {} moves).history.filterMap Event.dispatch,
      kept.payload.eventId = data.payload.eventId →
        ((run (step host config) {} moves).jobs (kept.jobId host)).isNone)
    (hdelivered : ∀ kept ∈ (run (step host config) {} moves).history.filterMap Event.delivery,
      kept.payload.eventId ≠ data.payload.eventId)
    (hletters : ∀ letter ∈ (run (step host config) {} moves).letters,
      letter.payload.payload.eventId ≠ data.payload.eventId) :
    ¬ InHand (run (step host config) {} moves) data := by
  rintro ⟨kept, -, hevent, hdispatched, ⟨j, hj⟩ | ⟨id, job, hjob, rfl⟩ | hkept | ⟨letter, hletter, rfl⟩⟩
  · by_cases hlt : j < n
    · exact hdata j hlt kept hj hevent
    · rw [tasks_run fun move hmove heq => hlt (htasks move hmove j heq)] at hj
      cases hj
  · obtain ⟨-, rfl⟩ := (known_run host config moves).jobs id job hjob
    have hnone := hjobs job.toJobData (List.mem_filterMap.mpr ⟨_, hdispatched, rfl⟩) hevent
    rw [hjob] at hnone
    cases hnone
  · exact hdelivered kept (List.mem_filterMap.mpr ⟨_, hkept, rfl⟩) hevent
  · exact hletters letter hletter hevent

/-- A payment is dispatched while the breaker of its webhook's domain is open. -/
theorem halted_event_lost :
    ¬ ∀ (config : Config) (moves : List (Move Unit)) (data : JobData Unit),
      config.redisConfigured = true → Along (step Host.plain config) Smooth {} moves →
        .dispatched data ∈ (run (step Host.plain config) {} moves).history →
          InHand (run (step Host.plain config) {} moves) data := by
  intro h
  have hkept := h {} (opening ++ [.resume 5 true, .dispatch 6 ⟨.shop, ⟨"payment.received", "later", ()⟩⟩,
    .resume 6 true]) ⟨.shop, ⟨"payment.received", "later", ()⟩⟩ rfl (by decide +kernel) (by decide +kernel)
  revert hkept
  apply not_inHand (n := 7) <;> decide +kernel

end Stored

end StellarTags.Webhooks.Deliveries
