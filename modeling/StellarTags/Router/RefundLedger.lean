import StellarTags.Router.Journal
import StellarTags.Router.Solvency

/-! What a refund claim is made of, and who may lower it. -/

namespace StellarTags.Router

open Library.Transactions Library.Integers Library.Runs Library.Tokens Soroban

namespace TrafficEvent

variable (user token : Address)

def credit : TrafficEvent → ℤ
  | .credited u k amount => if u = user ∧ k = token then amount else 0
  | _ => 0

def withdrawal : TrafficEvent → ℤ
  | .withdrawn u k amount => if u = user ∧ k = token then amount else 0
  | _ => 0

def pruning : TrafficEvent → ℤ
  | .pruned u k amount => if u = user ∧ k = token then amount else 0
  | _ => 0

end TrafficEvent

namespace Traffic

variable (t : Traffic) (user token : Address)

def credited : ℤ := (t.journal.map (TrafficEvent.credit user token)).sum

def withdrawn : ℤ := (t.journal.map (TrafficEvent.withdrawal user token)).sum

def pruned : ℤ := (t.journal.map (TrafficEvent.pruning user token)).sum

def Balanced : Prop := t.refund user token =
  t.credited user token - t.withdrawn user token - t.pruned user token

end Traffic

/-- The call withdraws the refund of the user in the token, or prunes it by name. -/
def Op.Lowers (user token : Address) : Op → Prop
  | .route op => op.MayWithdraw user token
  | .treasury op => op.MayPrune user token
  | _ => False

variable {h : Host} {licence : Licence} {env : Env} {user token : Address} {s t v : Traffic}
  {amount : ℤ} {u : Unit}

lemma refund_set (t : Traffic) (owner asset user token : Address) (balance : Option ℤ) :
    (t.setRefundBalance owner asset balance).refund user token =
      if owner = user ∧ asset = token then balance.getD 0 else t.refund user token := by
  unfold Traffic.refund Traffic.setRefundBalance
  simp only [eq_comm (a := user), eq_comm (a := token)]
  split_ifs <;> rfl

lemma Traffic.Balanced.publish (hs : s.Balanced user token) {event : TrafficEvent}
    (hj : t.journal = s.journal)
    (hr : t.refund user token = s.refund user token + event.credit user token -
      event.withdrawal user token - event.pruning user token) :
    (t.publish event).Balanced user token := by
  unfold Traffic.Balanced Traffic.credited Traffic.withdrawn Traffic.pruned at hs ⊢
  have hrefund : (t.publish event).refund user token = t.refund user token := rfl
  have hjournal : (t.publish event).journal = event :: s.journal := by rw [← hj]; rfl
  rw [hrefund, hr, hjournal]
  simp only [List.map_cons, List.sum_cons]
  omega

lemma balanced_kept (h : Host) (licence : Licence) (user token : Address) :
    Kept h licence fun t => t.Balanced user token := by
  intro s t hd hs
  cases hd with
  | quiet hq =>
    simpa only [Traffic.Balanced, Traffic.refund, Traffic.credited, Traffic.withdrawn,
      Traffic.pruned, hq.refunds, hq.journal] using hs
  | outside calls => exact hs
  | moved call hc ledger hl =>
    refine hs.publish rfl ?_
    simp [TrafficEvent.credit, TrafficEvent.withdrawal, TrafficEvent.pruning, Traffic.refund]
  | invoked contract hc calls =>
    refine hs.publish rfl ?_
    simp [TrafficEvent.credit, TrafficEvent.withdrawal, TrafficEvent.pruning, Traffic.refund]
  | credited owner asset hn =>
    refine hs.publish rfl ?_
    rw [refund_set]
    simp only [TrafficEvent.credit, TrafficEvent.withdrawal, TrafficEvent.pruning]
    split_ifs with he
    · obtain ⟨rfl, rfl⟩ := he
      simp
    · simp
  | withdrawn owner asset hl hn balance hb =>
    refine hs.publish rfl ?_
    rw [refund_set, hb]
    simp only [TrafficEvent.credit, TrafficEvent.withdrawal, TrafficEvent.pruning]
    split_ifs with he
    · obtain ⟨rfl, rfl⟩ := he
      simp
    · simp
  | pruned owner asset hl =>
    refine hs.publish rfl ?_
    rw [refund_set]
    simp only [TrafficEvent.credit, TrafficEvent.withdrawal, TrafficEvent.pruning]
    split_ifs with he
    · obtain ⟨rfl, rfl⟩ := he
      simp
    · simp

lemma undiminished_kept (hw : ¬ licence.withdraws user token) (hp : ¬ licence.prunes user token)
    (least : ℤ) : Kept h licence fun t => least ≤ t.refund user token := by
  intro s t hd hs
  cases hd with
  | quiet hq => simpa only [Traffic.refund, hq.refunds] using hs
  | outside calls => exact hs
  | moved call hc ledger hl => exact hs
  | invoked contract hc calls => exact hs
  | credited owner asset hn =>
    change least ≤ (s.setRefundBalance owner asset _).refund user token
    rw [refund_set]
    split_ifs with he
    · obtain ⟨rfl, rfl⟩ := he
      simp only [Option.getD_some]
      omega
    · exact hs
  | withdrawn owner asset hl hn balance hb =>
    change least ≤ (s.setRefundBalance owner asset _).refund user token
    rw [refund_set, if_neg]
    · exact hs
    · rintro ⟨rfl, rfl⟩
      exact hw hl
  | pruned owner asset hl =>
    change least ≤ (s.setRefundBalance owner asset _).refund user token
    rw [refund_set, if_neg]
    · exact hs
    · rintro ⟨rfl, rfl⟩
      exact hp hl

lemma step_lowers {s : State} (call : Call)
    (hl : (step h call s).traffic.refund user token < s.traffic.refund user token) :
    call.op.Lowers user token := by
  by_contra hn
  have hlicence : ¬ (call.op.licence s.settings).withdraws user token ∧
      ¬ (call.op.licence s.settings).prunes user token := by
    obtain ⟨env, op⟩ := call
    cases op with
    | route op => exact ⟨hn, id⟩
    | treasury op => exact ⟨id, hn⟩
    | _ => exact ⟨id, id⟩
  have hkept := undiminished_kept (h := h) hlicence.1 hlicence.2 (s.traffic.refund user token)
  exact absurd (step_kept call hkept le_rfl) (not_le.mpr hl)

lemma withdrawRefund_pays (hr : withdrawRefund h env user token amount s = .ok (u, t)) :
    t.refund user token = s.refund user token - amount ∧
      t.journal = .moved (.transfer token h.self user amount) ::
        .withdrawn user token amount :: s.journal := by
  simp only [withdrawRefund, requireAuth_bind_ok, Tx.reject_bind_ok, Tx.read_bind,
    Tx.update_bind] at hr
  obtain ⟨-, -, hle, hr⟩ := hr
  obtain ⟨ledger, -, -, rfl⟩ := token_ok hr
  refine ⟨?_, rfl⟩
  change (s.setRefundBalance user token _).refund user token = _
  rw [refund_set, if_pos ⟨rfl, rfl⟩]
  split_ifs with hn
  · rfl
  · simp only [Option.getD_none]
    omega

lemma claimAllRefunds_pays (hr : claimAllRefunds h env user token s = .ok (amount, t)) :
    amount = s.refund user token ∧ t.refund user token = 0 ∧
      t.journal = .moved (.transfer token h.self user amount) ::
        .withdrawn user token amount :: s.journal := by
  simp only [claimAllRefunds, Tx.bind_unit_ok, requireAuth_ok, Tx.read_bind, Tx.reject_ok,
    Tx.pure_ok] at hr
  obtain ⟨_, ⟨-, rfl⟩, _, ⟨-, rfl⟩, _, hr, rfl, rfl⟩ := hr
  obtain ⟨hrefund, hjournal⟩ := withdrawRefund_pays hr
  exact ⟨rfl, by omega, hjournal⟩

/-- A claim is what was credited less what was withdrawn and pruned; it falls only when its user
withdraws, by exactly what is paid out, or when a prune names it. -/
theorem refund_is_accounted (h : Host) (tokens : Ledger Address Address) (calls : List Call)
    (user token : Address) :
    let s := after h tokens calls
    s.traffic.refund user token = s.traffic.credited user token - s.traffic.withdrawn user token -
        s.traffic.pruned user token ∧
      (∀ call, (step h call s).traffic.refund user token < s.traffic.refund user token →
        call.op.Lowers user token) ∧
      (∀ env amount t, withdrawRefund h env user token amount s.traffic = .ok ((), t) →
        t.refund user token = s.traffic.refund user token - amount ∧
          t.journal = .moved (.transfer token h.self user amount) ::
            .withdrawn user token amount :: s.traffic.journal) ∧
      ∀ env amount t, claimAllRefunds h env user token s.traffic = .ok (amount, t) →
        amount = s.traffic.refund user token ∧ t.refund user token = 0 ∧
          t.journal = .moved (.transfer token h.self user amount) ::
            .withdrawn user token amount :: s.traffic.journal := by
  have hfresh : (State.fresh tokens).traffic.Balanced user token := rfl
  have hbalanced : (after h tokens calls).traffic.Balanced user token :=
    reachable_invariant (I := fun s : State => s.traffic.Balanced user token)
      (fun _ call hs => step_kept call (balanced_kept h _ user token) hs) hfresh ⟨calls, rfl⟩
  exact ⟨hbalanced, fun call hl => step_lowers call hl, fun _ _ _ hr => withdrawRefund_pays hr,
    fun _ _ _ hr => claimAllRefunds_pays hr⟩

section Examples

def archiveRefund : Call :=
  ⟨signedBy [⟨1⟩], .configure (.commitArchiveRoot ⟨5⟩ [⟨.refundBalance, ⟨2⟩, ⟨20⟩⟩] "refunds")⟩

def pruneRefund : Call :=
  ⟨signedBy [⟨1⟩], .treasury (.pruneArchivedEntries 1 [⟨.refundBalance, ⟨2⟩, ⟨20⟩⟩])⟩

/-- The claim of `⟨2⟩` on a hundred is pruned, and nothing was withdrawn. -/
theorem refund_pruned :
    (after .sample emptyLedger (heldRefund ++ [archiveRefund])).traffic.refund ⟨2⟩ ⟨20⟩ = 100 ∧
      (after .sample emptyLedger (heldRefund ++ [archiveRefund, pruneRefund])).traffic.refund
        ⟨2⟩ ⟨20⟩ = 0 ∧
      (after .sample emptyLedger (heldRefund ++ [archiveRefund, pruneRefund])).traffic.credited
        ⟨2⟩ ⟨20⟩ = 100 ∧
      (after .sample emptyLedger (heldRefund ++ [archiveRefund, pruneRefund])).traffic.withdrawn
        ⟨2⟩ ⟨20⟩ = 0 := by
  decide

end Examples

end StellarTags.Router
