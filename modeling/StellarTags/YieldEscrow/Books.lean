import StellarTags.Library.Holdings
import StellarTags.YieldEscrow.Portfolios

/-! The counters agree with the escrows, and every escrow is paid out once. -/

namespace StellarTags.YieldEscrow

open Library.Transactions Library.Runs Library.Holdings Soroban

variable {W : Type} {d : Deployment W} {R : W → W → Prop} {m m' : Machine W} {env : Env} {op : Op}
  {s t : State} {token : Address} {escrowId : ℕ} {record settled : Escrow} {y : YieldState}

namespace State

def openEscrows (s : State) : Set ℕ := {id | ∃ r, s.escrow id = some r ∧ r.isActive = true}

def locked (s : State) (token : Address) (escrowId : ℕ) : ℤ :=
  match s.escrow escrowId with
  | some r => if r.isActive = true ∧ r.token = token then r.principal else 0
  | none => 0

def totalPrincipal (s : State) (token : Address) : ℤ :=
  ((s.yieldState token).map YieldState.totalPrincipal).getD 0

lemma totalPrincipal_setYieldState (s : State) (token : Address) (y : YieldState) :
    (s.setYieldState token y).totalPrincipal =
      Function.update s.totalPrincipal token y.totalPrincipal := by
  funext x
  by_cases hx : x = token
  · subst hx
    simp [totalPrincipal, setYieldState]
  · simp [totalPrincipal, setYieldState, hx]

lemma totalPrincipal_yieldNow (s : State) (env : Env) (token : Address) :
    (s.yieldNow env token).totalPrincipal = s.totalPrincipal token := by
  rw [yieldNow, totalPrincipal]
  cases s.yieldState token <;> rfl

lemma totalPrincipal_halt (s : State) (env : Env) (token : Address) :
    (s.halt env token).totalPrincipal = s.totalPrincipal := by
  rw [halt]
  split
  · next y hy =>
    rw [totalPrincipal_setYieldState]
    have hsame : y.totalPrincipal = s.totalPrincipal token := by simp [totalPrincipal, hy]
    rw [hsame, Function.update_eq_self]
  · rfl

lemma totalPrincipal_halted (s : State) (env : Env) (tokens : List Address) :
    (s.halted env tokens).totalPrincipal = s.totalPrincipal := by
  have h (u : State) : (tokens.foldl (State.halt env) u).totalPrincipal = u.totalPrincipal := by
    induction tokens generalizing u with
    | nil => rfl
    | cons token tokens ih => rw [List.foldl_cons, ih, totalPrincipal_halt]
  exact h _

end State

/-- The escrows and the counters are as they were. -/
structure SameBooks (s t : State) : Prop where
  escrow : t.escrow = s.escrow
  activeEscrows : t.activeEscrows = s.activeEscrows
  totalPrincipal : t.totalPrincipal = s.totalPrincipal

/-- One escrow is opened. -/
structure OpensBook (escrowId : ℕ) (record : Escrow) (s t : State) : Prop where
  unused : s.escrow escrowId = none
  active : record.isActive = true
  positive : 0 < record.principal
  escrow : t.escrow = Function.update s.escrow escrowId (some record)
  activeEscrows : t.activeEscrows = s.activeEscrows + 1
  totalPrincipal : t.totalPrincipal =
    Function.update s.totalPrincipal record.token (s.totalPrincipal record.token + record.principal)

/-- One escrow is settled. -/
structure ClosesBook (escrowId : ℕ) (record settled : Escrow) (s t : State) : Prop where
  found : s.escrow escrowId = some record
  active : record.isActive = true
  counted : 1 ≤ s.activeEscrows
  flagged : settled = { record with released := true } ∨ settled = { record with cancelled := true }
  escrow : t.escrow = Function.update s.escrow escrowId (some settled)
  activeEscrows : t.activeEscrows = s.activeEscrows - 1
  totalPrincipal : t.totalPrincipal =
    Function.update s.totalPrincipal record.token (s.totalPrincipal record.token - record.principal)

lemma Closed.book {payments : List (Address × ℤ)} {party : Address}
    (h : Closed d escrowId record settled y payments m m')
    (hs : Settles env escrowId record op party settled)
    (hy : y.totalPrincipal = m.store.totalPrincipal record.token) :
    ClosesBook escrowId record settled m.store m'.store := by
  obtain ⟨rate, event, hstore⟩ := h.store
  have hbooks : m'.store.totalPrincipal = Function.update m.store.totalPrincipal settled.token
      (y.totalPrincipal - record.principal) := by
    rw [hstore, closed_eq]
    exact State.totalPrincipal_setYieldState _ _ _
  exact
    { found := h.found
      active := h.active
      counted := h.counted
      flagged := hs.flagged
      escrow := by rw [hstore, closed_eq]; rfl
      activeEscrows := by rw [hstore, closed_eq]; rfl
      totalPrincipal := by rw [hbooks, hs.sameToken, hy] }

lemma Opened.book (h : Opened d env escrowId record m m') :
    OpensBook escrowId record m.store m'.store := by
  obtain ⟨rate, event, hstore⟩ := h.store
  have hbooks : m'.store.totalPrincipal = Function.update m.store.totalPrincipal record.token
      ((m.store.yieldNow env record.token).totalPrincipal + record.principal) := by
    rw [hstore, opened_eq]
    exact State.totalPrincipal_setYieldState _ _ _
  rw [State.totalPrincipal_yieldNow] at hbooks
  exact
    { unused := h.unused
      active := by simp [Escrow.isActive, h.active]
      positive := h.positive
      escrow := by rw [hstore, opened_eq]; rfl
      activeEscrows := by rw [hstore, opened_eq]; rfl
      totalPrincipal := hbooks }

lemma Effect.books (h : Effect d R env m m' op)
    (hfresh : m.store.initialized = false → m.store.activeEscrows = 0) :
    (op.subject = none ∧ SameBooks m.store m'.store ∧ m'.transfers = m.transfers) ∨
    (∃ escrowId record, op.subject = some (escrowId, false) ∧
      Opened d env escrowId record m m' ∧ OpensBook escrowId record m.store m'.store) ∨
    ∃ escrowId record settled party payments, op.subject = some (escrowId, true) ∧
      Settles env escrowId record op party settled ∧
      ClosesBook escrowId record settled m.store m'.store ∧
      (∀ p ∈ payments, p.1 = record.payer ∨ p.1 = record.beneficiary) ∧
      m'.transfers = d.paid record.token payments ++ m.transfers := by
  have checkpoint (s : State) (env : Env) (token : Address) (rate : ℕ) :
      (s.setYieldState token ((s.yieldNow env token).accrued env.timestamp rate)).totalPrincipal =
        s.totalPrincipal := by
    rw [State.totalPrincipal_setYieldState]
    have hsame : ((s.yieldNow env token).accrued env.timestamp rate).totalPrincipal =
        s.totalPrincipal token := State.totalPrincipal_yieldNow s env token
    rw [hsame, Function.update_eq_self]
  cases h with
  | initialised hf hm =>
    rw [hm]
    exact Or.inl ⟨rfl, ⟨rfl, (hfresh hf).symm, rfl⟩, rfl⟩
  | ported hop _ _ _ hm | thresholded hop hm =>
    rw [hm]
    exact Or.inl ⟨hop, ⟨rfl, rfl, rfl⟩, rfl⟩
  | looked hop hout =>
    rw [hout.store]
    exact Or.inl ⟨hop, ⟨rfl, rfl, rfl⟩, hout.transfers⟩
  | rebalanced _ hout hm =>
    rw [hm, Machine.put_store, hout.store]
    exact Or.inl ⟨rfl, ⟨rfl, rfl, rfl⟩, hout.transfers⟩
  | checkpointed hout _ hm =>
    rw [hm, Machine.put_store, hout.store]
    exact Or.inl ⟨rfl, ⟨rfl, rfl, checkpoint _ _ _ _⟩, hout.transfers⟩
  | opened _ hopen _ => exact Or.inr (Or.inl ⟨_, _, rfl, hopen, hopen.book⟩)
  | redeemed hsettles _ _ hclose _ =>
    have hbook := hclose.book hsettles (State.totalPrincipal_yieldNow _ _ _)
    refine Or.inr (Or.inr ⟨_, _, _, _, _, hsettles.subject, hsettles, hbook, ?_, hclose.transfers⟩)
    cases hsettles <;> simp [Op.payments]
  | rescued hsettles _ hyield hclose _ _ _ =>
    have hbook := hclose.book hsettles (by simp [State.totalPrincipal, hyield])
    refine Or.inr (Or.inr ⟨_, _, _, _, _, hsettles.subject, hsettles, hbook, ?_, hclose.transfers⟩)
    cases hsettles <;> simp
  | unwoundAll _ hout hm =>
    rw [hm, Machine.put_store, hout.store]
    have htotal := State.totalPrincipal_halted m.store env m.store.tokens
    rw [halted_eq] at htotal ⊢
    exact Or.inl ⟨rfl, ⟨rfl, rfl, htotal⟩, hout.transfers⟩
  | @unwound token _ _ _ _ hout hm =>
    rw [hm, Machine.put_store, hout.store]
    have htotal := State.totalPrincipal_halted (m.store.recordToken token) env [token]
    rw [halted_eq, recordToken_eq] at htotal ⊢
    exact Or.inl ⟨rfl, ⟨rfl, rfl, htotal⟩, hout.transfers⟩

section Balances

/-- The counters are those of the escrows, none of which is both released and cancelled. -/
structure Balanced (s : State) : Prop where
  finite : s.openEscrows.Finite
  count : s.openEscrows.ncard = s.activeEscrows
  principal : ∀ token, Totals (s.locked token) (s.totalPrincipal token)
  exclusive : ∀ id r, s.escrow id = some r → ¬ (r.released = true ∧ r.cancelled = true)
  positive : ∀ id r, s.escrow id = some r → 0 < r.principal

lemma OpensBook.openEscrows (h : OpensBook escrowId record s t) :
    escrowId ∉ s.openEscrows ∧ t.openEscrows = insert escrowId s.openEscrows := by
  have hnew : escrowId ∉ s.openEscrows := by
    rintro ⟨r, hr, -⟩
    rw [h.unused] at hr
    cases hr
  refine ⟨hnew, Set.ext fun id => ?_⟩
  by_cases hid : id = escrowId
  · subst hid
    simp [State.openEscrows, h.escrow, h.active]
  · simp [State.openEscrows, h.escrow, hid]

lemma ClosesBook.inactive (h : ClosesBook escrowId record settled s t) :
    settled.isActive = false := by
  rcases h.flagged with rfl | rfl <;> simp [Escrow.isActive]

lemma ClosesBook.openEscrows (h : ClosesBook escrowId record settled s t) :
    escrowId ∈ s.openEscrows ∧ t.openEscrows = s.openEscrows \ {escrowId} := by
  refine ⟨⟨record, h.found, h.active⟩, Set.ext fun id => ?_⟩
  by_cases hid : id = escrowId
  · subst hid
    simp [State.openEscrows, h.escrow, h.inactive]
  · simp [State.openEscrows, h.escrow, hid]

lemma OpensBook.locked (h : OpensBook escrowId record s t) (token : Address) : t.locked token =
    Function.update (s.locked token) escrowId
      (s.locked token escrowId + if token = record.token then record.principal else 0) := by
  funext id
  by_cases hid : id = escrowId
  · subst hid
    by_cases htoken : token = record.token
    · simp [State.locked, h.escrow, h.unused, h.active, htoken]
    · simp [State.locked, h.escrow, h.unused, htoken, Ne.symm htoken]
  · simp [State.locked, h.escrow, hid]

lemma ClosesBook.locked (h : ClosesBook escrowId record settled s t) (token : Address) :
    t.locked token = Function.update (s.locked token) escrowId
      (s.locked token escrowId + if token = record.token then -record.principal else 0) := by
  funext id
  by_cases hid : id = escrowId
  · subst hid
    by_cases htoken : token = record.token
    · simp [State.locked, h.escrow, h.found, h.active, h.inactive, htoken]
    · simp [State.locked, h.escrow, h.found, h.inactive, htoken, Ne.symm htoken]
  · simp [State.locked, h.escrow, hid]

lemma totals_shift {k : ℤ} {a : Address}
    (h : ∀ token, Totals (s.locked token) (s.totalPrincipal token)) (id : ℕ)
    (hlocked : ∀ token, t.locked token = Function.update (s.locked token) id
      (s.locked token id + if token = a then k else 0))
    (htotal : t.totalPrincipal = Function.update s.totalPrincipal a (s.totalPrincipal a + k))
    (token : Address) : Totals (t.locked token) (t.totalPrincipal token) := by
  have hshift := (h token).update id (if token = a then k else 0)
  rw [hlocked, htotal]
  by_cases htoken : token = a
  · subst htoken
    simpa using hshift
  · simpa [htoken] using hshift

lemma mem_of_update {e : Escrow} {id : ℕ} {r : Escrow}
    (h : t.escrow = Function.update s.escrow escrowId (some e)) (hr : t.escrow id = some r) :
    (id = escrowId ∧ r = e) ∨ s.escrow id = some r := by
  rw [h] at hr
  by_cases hid : id = escrowId
  · rw [hid, Function.update_self] at hr
    exact Or.inl ⟨hid, (Option.some.inj hr).symm⟩
  · rw [Function.update_of_ne hid] at hr
    exact Or.inr hr

lemma Escrow.isActive_iff : record.isActive = true ↔
    record.released = false ∧ record.cancelled = false := by
  simp [Escrow.isActive]

lemma ClosesBook.exclusive (h : ClosesBook escrowId record settled s t) :
    ¬ (settled.released = true ∧ settled.cancelled = true) := by
  have hactive := Escrow.isActive_iff.mp h.active
  rcases h.flagged with rfl | rfl <;> simp [hactive]

lemma Balanced.opens (hs : Balanced s) (h : OpensBook escrowId record s t) : Balanced t := by
  obtain ⟨hnew, hopen⟩ := h.openEscrows
  refine ⟨?_, ?_, ?_, fun id r hr => ?_, fun id r hr => ?_⟩
  · rw [hopen]
    exact hs.finite.insert escrowId
  · rw [hopen, Set.ncard_insert_of_notMem hnew hs.finite, hs.count, h.activeEscrows]
  · exact totals_shift hs.principal escrowId h.locked h.totalPrincipal
  · rcases mem_of_update h.escrow hr with ⟨-, rfl⟩ | hr
    · simp [(Escrow.isActive_iff.mp h.active).1]
    · exact hs.exclusive id r hr
  · rcases mem_of_update h.escrow hr with ⟨-, rfl⟩ | hr
    · exact h.positive
    · exact hs.positive id r hr

lemma Balanced.closes (hs : Balanced s) (h : ClosesBook escrowId record settled s t) :
    Balanced t := by
  obtain ⟨hmem, hopen⟩ := h.openEscrows
  refine ⟨?_, ?_, ?_, fun id r hr => ?_, fun id r hr => ?_⟩
  · rw [hopen]
    exact hs.finite.sdiff
  · rw [hopen, Set.ncard_sdiff_singleton_of_mem hmem, hs.count, h.activeEscrows]
  · exact totals_shift hs.principal escrowId h.locked h.totalPrincipal
  · rcases mem_of_update h.escrow hr with ⟨-, rfl⟩ | hr
    · exact h.exclusive
    · exact hs.exclusive id r hr
  · rcases mem_of_update h.escrow hr with ⟨-, rfl⟩ | hr
    · have hpositive := hs.positive escrowId record h.found
      rcases h.flagged with rfl | rfl <;> exact hpositive
    · exact hs.positive id r hr

lemma Balanced.same (hs : Balanced s) (h : SameBooks s t) : Balanced t := by
  have hopen : t.openEscrows = s.openEscrows := by
    rw [State.openEscrows, State.openEscrows, h.escrow]
  have hlocked : t.locked = s.locked := by
    funext token id
    rw [State.locked, State.locked, h.escrow]
  refine ⟨hopen ▸ hs.finite, ?_, fun token => ?_, fun id r hr => ?_, fun id r hr => ?_⟩
  · rw [hopen, hs.count, h.activeEscrows]
  · rw [hlocked, h.totalPrincipal]
    exact hs.principal token
  · rw [h.escrow] at hr
    exact hs.exclusive id r hr
  · rw [h.escrow] at hr
    exact hs.positive id r hr

lemma Balanced.start : Balanced {} where
  finite := by simp [State.openEscrows]
  count := by simp [State.openEscrows]
  principal _ := .zero
  exclusive _ _ h := nomatch h
  positive _ _ h := nomatch h

end Balances

section Log

/-- A call that opened an escrow or settled it, and the transfers it had tokens make. -/
structure Entry where
  escrowId : ℕ
  settles : Bool
  transfers : List Transfer
  deriving DecidableEq, Repr

def newTransfers (m m' : Machine W) : List Transfer :=
  m'.transfers.take (m'.transfers.length - m.transfers.length)

def Move.entries (d : Deployment W) (m : Machine W) : Move W → List Entry
  | .call env op =>
    match op.subject with
    | some (escrowId, settles) =>
      if Tx.succeeds (op.invoke d env) m = true then
        [⟨escrowId, settles, newTransfers m (step d (.call env op) m)⟩]
      else []
    | none => []
  | .outside _ => []

def logOf (d : Deployment W) (world : W) (moves : List (Move W)) : List Entry :=
  trace (step d) (fun m move => move.entries d m) ⟨{}, [], world⟩ moves

/-- An escrow is opened with its payer's principal, and settled with payments to its parties. -/
def Entry.Accords (d : Deployment W) (e : Entry) (r : Escrow) : Prop :=
  if e.settles = true then
    ∀ t ∈ e.transfers, t.token = r.token ∧ t.source = d.self ∧
      (t.target = r.payer ∨ t.target = r.beneficiary) ∧ 0 < t.amount
  else e.transfers = [⟨r.token, r.payer, d.self, r.principal⟩]

/-- The log tells of every transfer; each escrow is opened once, and settled once if it is. -/
structure Accounted (d : Deployment W) (log : List Entry) (m : Machine W) : Prop where
  transfers : m.transfers = (log.map Entry.transfers).reverse.flatten
  opened : ∀ id, m.store.escrow id ≠ none ↔ (id, false) ∈ log.map fun e => (e.escrowId, e.settles)
  settled : ∀ id, (∃ r, m.store.escrow id = some r ∧ r.isActive = false) ↔
    (id, true) ∈ log.map fun e => (e.escrowId, e.settles)
  once : (log.map fun e => (e.escrowId, e.settles)).Nodup
  accords : ∀ e ∈ log, ∃ r, m.store.escrow e.escrowId = some r ∧ e.Accords d r

variable {log : List Entry}

lemma Accounted.start (world : W) : Accounted d [] ⟨{}, [], world⟩ where
  transfers := rfl
  opened id := by simp
  settled id := by simp
  once := .nil
  accords := by simp

lemma newTransfers_eq {ts : List Transfer} (h : m'.transfers = ts ++ m.transfers) :
    newTransfers m m' = ts := by
  rw [newTransfers, h]
  simp

lemma Accounted.same (h : Accounted d log m) (hs : SameBooks m.store m'.store)
    (ht : m'.transfers = m.transfers) : Accounted d log m' where
  transfers := ht.trans h.transfers
  opened := hs.escrow ▸ h.opened
  settled := hs.escrow ▸ h.settled
  once := h.once
  accords := hs.escrow ▸ h.accords

lemma Accounted.opens (h : Accounted d log m) (ho : OpensBook escrowId record m.store m'.store)
    (ht : m'.transfers = [⟨record.token, record.payer, d.self, record.principal⟩] ++ m.transfers) :
    Accounted d (log ++ [⟨escrowId, false, newTransfers m m'⟩]) m' where
  transfers := by
    rw [newTransfers_eq ht, ht, h.transfers]
    simp
  opened id := by
    have hold := h.opened id
    by_cases hid : id = escrowId
    · subst hid
      simp [ho.escrow]
    · simpa [ho.escrow, hid] using hold
  settled id := by
    have hold := h.settled id
    by_cases hid : id = escrowId
    · subst hid
      have hnot : (id, true) ∉ log.map fun e => (e.escrowId, e.settles) := by
        rw [← hold, ho.unused]
        simp
      simpa [ho.escrow, ho.active] using hnot
    · simpa [ho.escrow, hid] using hold
  once := by
    have hnot : (escrowId, false) ∉ log.map fun e => (e.escrowId, e.settles) := by
      rw [← h.opened escrowId, ho.unused]
      simp
    rw [List.map_append, List.map_singleton]
    exact List.nodup_append.mpr ⟨h.once, List.nodup_singleton _, by simpa using hnot⟩
  accords e he := by
    rcases List.mem_append.mp he with he | he
    · obtain ⟨r, hr, hpaid⟩ := h.accords e he
      have hid : e.escrowId ≠ escrowId := by
        intro hid
        rw [hid, ho.unused] at hr
        cases hr
      exact ⟨r, by rw [ho.escrow, Function.update_of_ne hid, hr], hpaid⟩
    · rw [List.mem_singleton.mp he]
      refine ⟨record, by rw [ho.escrow, Function.update_self], ?_⟩
      rw [Entry.Accords, if_neg Bool.false_ne_true]
      exact newTransfers_eq ht

lemma ClosesBook.accords {e : Entry} (h : ClosesBook escrowId record settled s t)
    (he : e.Accords d record) : e.Accords d settled := by
  rcases h.flagged with rfl | rfl <;> exact he

lemma mem_paid {payments : List (Address × ℤ)} {transfer : Transfer}
    (h : transfer ∈ d.paid token payments) : transfer.token = token ∧ transfer.source = d.self ∧
      0 < transfer.amount ∧ ∃ p ∈ payments, transfer.target = p.1 := by
  rw [Deployment.paid, List.mem_reverse] at h
  obtain ⟨p, hp, rfl⟩ := List.mem_map.mp h
  obtain ⟨hp, hpos⟩ := List.mem_filter.mp hp
  exact ⟨rfl, rfl, of_decide_eq_true hpos, p, hp, rfl⟩

lemma Accounted.closes (h : Accounted d log m)
    (hc : ClosesBook escrowId record settled m.store m'.store) {payments : List (Address × ℤ)}
    (hp : ∀ p ∈ payments, p.1 = record.payer ∨ p.1 = record.beneficiary)
    (ht : m'.transfers = d.paid record.token payments ++ m.transfers) :
    Accounted d (log ++ [⟨escrowId, true, newTransfers m m'⟩]) m' where
  transfers := by
    rw [newTransfers_eq ht, ht, h.transfers]
    simp
  opened id := by
    have hold := h.opened id
    by_cases hid : id = escrowId
    · subst hid
      rw [hc.found] at hold
      simpa [hc.escrow] using hold
    · simpa [hc.escrow, hid] using hold
  settled id := by
    have hold := h.settled id
    by_cases hid : id = escrowId
    · subst hid
      simp [hc.escrow, hc.inactive]
    · simpa [hc.escrow, hid] using hold
  once := by
    have hnot : (escrowId, true) ∉ log.map fun e => (e.escrowId, e.settles) := by
      rw [← h.settled escrowId, hc.found]
      simp [hc.active]
    rw [List.map_append, List.map_singleton]
    exact List.nodup_append.mpr ⟨h.once, List.nodup_singleton _, by simpa using hnot⟩
  accords e he := by
    rcases List.mem_append.mp he with he | he
    · obtain ⟨r, hr, hpaid⟩ := h.accords e he
      by_cases hid : e.escrowId = escrowId
      · rw [hid, hc.found] at hr
        obtain rfl := Option.some.inj hr
        exact ⟨settled, by rw [hc.escrow, hid, Function.update_self], hc.accords hpaid⟩
      · exact ⟨r, by rw [hc.escrow, Function.update_of_ne hid, hr], hpaid⟩
    · rw [List.mem_singleton.mp he]
      refine ⟨settled, by rw [hc.escrow, Function.update_self], hc.accords ?_⟩
      rw [Entry.Accords, if_pos rfl]
      intro transfer hmem
      rw [newTransfers_eq ht] at hmem
      obtain ⟨htoken, hsource, hpos, p, hmem, htarget⟩ := mem_paid hmem
      exact ⟨htoken, hsource, htarget ▸ hp p hmem, hpos⟩

lemma step_accounted (move : Move W) (hlog : Accounted d log m) (hbal : Balanced m.store)
    (hheld : PortfolioHeld m.store) :
    Accounted d (log ++ move.entries d m) (step d move m) ∧ Balanced (step d move m).store := by
  cases move with
  | outside f =>
    rw [Move.entries, List.append_nil]
    exact ⟨hlog.same ⟨rfl, rfl, rfl⟩ rfl, hbal⟩
  | call env op =>
    cases hs : Tx.succeeds (op.invoke d env) m with
    | false =>
      have hnone : Move.entries d m (.call env op) = [] := by
        rw [Move.entries]
        split
        · rw [if_neg (by rw [hs]; exact Bool.false_ne_true)]
        · rfl
      rw [hnone, List.append_nil, step, Tx.commit_of_fails hs]
      exact ⟨hlog, hbal⟩
    | true =>
      obtain ⟨_, hok⟩ := Tx.succeeds_iff.mp hs
      have he : Effect d Anywhere env m (step d (.call env op) m) op :=
        op.invoke_effect d.keepsAnywhere hok
      rw [Move.entries, hs]
      generalize step d (.call env op) m = m' at he
      rcases he.books fun h => (hheld.fresh h).2 with ⟨hop, hsame, ht⟩ |
        ⟨escrowId, record, hop, hopened, hopens⟩ |
        ⟨escrowId, record, settled, party, payments, hop, -, hcloses, hp, ht⟩
      · rw [hop, List.append_nil]
        exact ⟨hlog.same hsame ht, hbal.same hsame⟩
      · rw [hop]
        exact ⟨hlog.opens hopens hopened.transfers, hbal.opens hopens⟩
      · rw [hop]
        exact ⟨hlog.closes hcloses hp ht, hbal.closes hcloses⟩

lemma after_accounted (d : Deployment W) (world : W) (moves : List (Move W)) :
    (Accounted d (logOf d world moves) (after d world moves) ∧
      Balanced (after d world moves).store) ∧ PortfolioHeld (after d world moves).store := by
  have hstep : ∀ log (m : Machine W) (move : Move W),
      (Accounted d log m ∧ Balanced m.store) ∧ PortfolioHeld m.store →
        (Accounted d (log ++ move.entries d m) (step d move m) ∧ Balanced (step d move m).store) ∧
          PortfolioHeld (step d move m).store :=
    fun log m move h => ⟨step_accounted move h.1.1 h.1.2 h.2, step_portfolio d move h.2⟩
  have hstart : (Accounted d [] ⟨{}, [], world⟩ ∧ Balanced {}) ∧ PortfolioHeld {} :=
    ⟨⟨.start world, .start⟩, after_portfolio d world []⟩
  exact trace_invariant hstep hstart moves

/-- A settled escrow is left alone. -/
lemma step_settled (move : Move W) (hheld : PortfolioHeld m.store)
    (hr : m.store.escrow escrowId = some record) (hi : record.isActive = false) :
    (step d move m).store.escrow escrowId = some record := by
  cases move with
  | outside f => exact hr
  | call env op =>
    rcases step_cases d.keepsAnywhere env op m with heq | he
    · rwa [heq]
    generalize step d (.call env op) m = m' at he
    rcases he.books fun h => (hheld.fresh h).2 with ⟨-, hsame, -⟩ | ⟨id, other, -, -, hopens⟩ |
      ⟨id, other, settled, -, -, -, -, hcloses, -⟩
    · rw [hsame.escrow, hr]
    · have hid : escrowId ≠ id := by
        rintro rfl
        rw [hopens.unused] at hr
        cases hr
      rw [hopens.escrow, Function.update_of_ne hid, hr]
    · have hid : escrowId ≠ id := by
        rintro rfl
        rw [hcloses.found] at hr
        obtain rfl := Option.some.inj hr
        rw [hcloses.active] at hi
        cases hi
      rw [hcloses.escrow, Function.update_of_ne hid, hr]

lemma run_settled (hheld : PortfolioHeld m.store) (hr : m.store.escrow escrowId = some record)
    (hi : record.isActive = false) (later : List (Move W)) :
    (run (step d) m later).store.escrow escrowId = some record := by
  have hrun : PortfolioHeld (run (step d) m later).store ∧
      (run (step d) m later).store.escrow escrowId = some record :=
    run_invariant (I := fun m => PortfolioHeld m.store ∧ m.store.escrow escrowId = some record)
      (fun _ move h _ => ⟨step_portfolio d move h.1, step_settled move h.1 h.2 hi⟩) ⟨hheld, hr⟩
      (along_of_forall (step d) (fun _ _ => trivial) m later)
  exact hrun.2

/-- What holds of every escrow that is opened, and of what settling it leaves, holds of all. -/
lemma step_records {P : Escrow → Prop}
    (hopened : ∀ env id r (m m' : Machine W), Opened d env id r m m' → P r)
    (hflagged : ∀ r, P r → P { r with released := true } ∧ P { r with cancelled := true })
    (move : Move W) (hheld : PortfolioHeld m.store) (h : ∀ id r, m.store.escrow id = some r → P r) :
    ∀ id r, (step d move m).store.escrow id = some r → P r := by
  cases move with
  | outside f => exact h
  | call env op =>
    rcases step_cases d.keepsAnywhere env op m with heq | he
    · rwa [heq]
    generalize step d (.call env op) m = m' at he
    intro id r hr
    rcases he.books fun h => (hheld.fresh h).2 with ⟨-, hsame, -⟩ |
      ⟨escrowId, record, -, hopen, hopens⟩ |
      ⟨escrowId, record, settled, party, payments, -, -, hcloses, -⟩
    · rw [hsame.escrow] at hr
      exact h id r hr
    · rcases mem_of_update hopens.escrow hr with ⟨-, rfl⟩ | hr
      · exact hopened _ _ _ _ _ hopen
      · exact h id r hr
    · rcases mem_of_update hcloses.escrow hr with ⟨-, rfl⟩ | hr
      · have hrecord := hflagged record (h escrowId record hcloses.found)
        rcases hcloses.flagged with rfl | rfl
        · exact hrecord.1
        · exact hrecord.2
      · exact h id r hr

lemma after_shares (d : Deployment W) (world : W) (moves : List (Move W)) (id : ℕ) (r : Escrow)
    (hr : (after d world moves).store.escrow id = some r) :
    r.beneficiaryInterestBps ≤ bpsDenominator := by
  have hstart : ∀ id r, ({} : State).escrow id = some r →
      r.beneficiaryInterestBps ≤ bpsDenominator := fun _ _ h => nomatch h
  have hrun : PortfolioHeld (after d world moves).store ∧
      ∀ id r, (after d world moves).store.escrow id = some r →
        r.beneficiaryInterestBps ≤ bpsDenominator :=
    run_invariant (I := fun m => PortfolioHeld m.store ∧ ∀ id r, m.store.escrow id = some r →
        r.beneficiaryInterestBps ≤ bpsDenominator)
      (fun _ move h _ => ⟨step_portfolio d move h.1,
        step_records (P := fun r => r.beneficiaryInterestBps ≤ bpsDenominator)
          (fun _ _ _ _ _ hopen => hopen.share) (fun _ hr => ⟨hr, hr⟩) move h.1 h.2⟩)
      ⟨after_portfolio d world [], hstart⟩
      (along_of_forall (step d) (fun _ _ => trivial) _ moves)
  exact hrun.2 id r hr

/-- The books of an escrow contract that has this log behind it. -/
structure Bookkeeping (d : Deployment W) (log : List Entry) (m : Machine W) : Prop where
  active : m.store.openEscrows.Finite ∧ m.store.openEscrows.ncard = m.store.activeEscrows
  principal : ∀ token, (Function.support (m.store.locked token)).Finite ∧
    ∑ᶠ id, m.store.locked token id = m.store.totalPrincipal token
  exclusive : ∀ id r, m.store.escrow id = some r → ¬ (r.released = true ∧ r.cancelled = true)
  unchanged : ∀ id r, m.store.escrow id = some r → r.isActive = false →
    ∀ later, (run (step d) m later).store.escrow id = some r
  settledOnce : (log.map fun e => (e.escrowId, e.settles)).Nodup ∧
    ∀ id, (∃ r, m.store.escrow id = some r ∧ r.isActive = false) ↔
      (id, true) ∈ log.map fun e => (e.escrowId, e.settles)
  transfers : m.transfers = (log.map Entry.transfers).reverse.flatten ∧
    ∀ e ∈ log, ∃ r, m.store.escrow e.escrowId = some r ∧ e.Accords d r

end Log

end StellarTags.YieldEscrow
