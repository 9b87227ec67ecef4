import StellarTags.Library.Holdings
import StellarTags.Router.Calls

/-! The router's holdings: what backs the refunds and what is on its way through. -/

namespace StellarTags.Router

open Library.Transactions Library.Integers Library.Tokens Library.Reserves Soroban

section Reads

variable {R : Traffic → Traffic → Prop} [IsPreorder Traffic R] {cfg : Settings} {env : Env}
  {sender : Address} {amount : ℤ}

lemma loadFeeConfig_reads : Tx.Respects R (cfg.loadFeeConfig : Routing _) :=
  .bind (.unwrap _ _) fun _ => .bind (.unwrap _ _) fun _ => .bind (.unwrap _ _) fun _ => .pure _

lemma verifyKycForAmount_reads : Tx.Respects R (verifyKycForAmount cfg env sender amount) := by
  unfold verifyKycForAmount
  cases cfg.kycThreshold with
  | none => exact .pure ()
  | some threshold =>
    refine .whenever fun _ => .bind (.unwrap _ _) fun oracle => ?_
    cases env.isVerified oracle sender with
    | none => exact .trap
    | some verified => exact .reject _ _

lemma pairMaxSlippageBps_reads {tokenIn tokenOut : Address} :
    Tx.Respects R (cfg.pairMaxSlippageBps tokenIn tokenOut : Routing _) := by
  unfold Settings.pairMaxSlippageBps
  cases cfg.pairSlippage tokenIn tokenOut with
  | none => exact .pure _
  | some bps =>
    dsimp only
    split_ifs
    · exact .pure _
    · exact .fail _

lemma checkedI128_reads {n : ℤ} : Tx.Respects R (checkedI128 n : Routing ℤ) :=
  .bind (.demand _) fun _ => .pure _

lemma slippageFloor_reads {expectedAmountOut maxSlippageBps : ℤ} :
    Tx.Respects R (slippageFloor expectedAmountOut maxSlippageBps) :=
  .bind checkedI128_reads fun _ => .bind checkedI128_reads fun _ => .pure _

lemma checkSlippage_reads {swap : SwapPayment} {amountOut : ℤ} :
    Tx.Respects R (checkSlippage cfg swap amountOut) :=
  .bind (.reject _ _) fun _ => .whenever fun _ => .bind pairMaxSlippageBps_reads fun _ =>
    .bind slippageFloor_reads fun _ => .reject _ _

lemma validateSwap_reads {swap : SwapPayment} : Tx.Respects R (validateSwap cfg env swap) := by
  refine .bind (.reject _ _) fun _ => .bind (.reject _ _) fun _ => .bind (.reject _ _) fun _ => ?_
  refine .bind (.reject _ _) fun _ => .bind (.reject _ _) fun _ => .bind (.reject _ _) fun _ => ?_
  exact .bind (.reject _ _) fun _ => .reject _ _

end Reads

/-- Neither tokens nor refund claims have moved, and nothing is published. -/
structure Quiet (s t : Traffic) : Prop where
  tokens : t.tokens = s.tokens
  refunds : t.refundBalance = s.refundBalance
  journal : t.journal = s.journal

namespace Quiet

instance : IsPreorder Traffic Quiet where
  refl _ := ⟨rfl, rfl, rfl⟩
  trans _ _ _ hst htv := ⟨htv.1.trans hst.1, htv.2.trans hst.2, htv.3.trans hst.3⟩

variable {h : Host} {cfg : Settings} {env : Env} {sender recipient : Address} {amount : ℤ}

lemma accrueUserRecord : Tx.Respects Quiet (accrueUserRecord env sender amount) := by
  refine .bind (.read _) fun loaded => .bind (.bind (.demand _) fun _ => .pure _) fun elapsed => ?_
  refine .bind (.reject _ _) fun _ => .bind (.reject _ _) fun _ => ?_
  refine .bind (.update fun _ => ⟨rfl, rfl, rfl⟩) fun _ => ?_
  exact .bind (.whenever fun _ => .update fun _ => ⟨rfl, rfl, rfl⟩) fun _ => .pure _

lemma checkRateLimit : Tx.Respects Quiet (checkRateLimit cfg env sender) :=
  .whenever fun _ => .bind (.read _) fun _ => .bind (.reject _ _) fun _ =>
    .update fun _ => ⟨rfl, rfl, rfl⟩

lemma bumpHeartbeat : Tx.Respects Quiet (bumpHeartbeat cfg env) :=
  .whenever fun _ => .update fun _ => ⟨rfl, rfl, rfl⟩

lemma requireOpen : Tx.Respects Quiet (requireOpen cfg) :=
  .bind (.reject _ _) fun _ => .reject _ _

lemma validatePayment : Tx.Respects Quiet (validatePayment cfg env sender recipient amount) :=
  .bind (.reject _ _) fun _ => .bind (.reject _ _) fun _ => .bind (.reject _ _) fun _ =>
    .bind (.reject _ _) fun _ => verifyKycForAmount_reads

lemma nextReply : Tx.Respects Quiet (nextReply env) :=
  .bind (.read _) fun _ => .bind (.update fun _ => ⟨rfl, rfl, rfl⟩) fun _ => .pure _

end Quiet

namespace Traffic

/-- The refund claims are backed by `reserve`, and the router holds `owed` on top of it. -/
structure Holds (h : Host) (reserve owed : Address → ℤ) (t : Traffic) : Prop where
  unlent : t.tokens.Unlent h.self
  backed : ∀ k, Backed (t.refund · k) (reserve k)
  kept : ∀ k, reserve k + owed k ≤ t.tokens.balance k h.self

/-- The refund claims stay backed when what is `owed` has left the router. -/
def Solvent (h : Host) (owed : Address → ℤ) (t : Traffic) : Prop :=
  ∃ reserve, t.Holds h reserve owed

variable {h : Host} {reserve owed due : Address → ℤ} {s t : Traffic} {k u : Address} {n : ℤ}

lemma Holds.quiet (hs : s.Holds h reserve owed) (hq : Quiet s t) : t.Holds h reserve owed := by
  refine ⟨hq.tokens ▸ hs.unlent, fun k => ?_, hq.tokens ▸ hs.kept⟩
  have hr : t.refund = s.refund := by
    funext u k
    rw [refund, refund, hq.refunds]
  rw [hr]
  exact hs.backed k

lemma Holds.publish (hs : s.Holds h reserve owed) (event : TrafficEvent) :
    (s.publish event).Holds h reserve owed := ⟨hs.unlent, hs.backed, hs.kept⟩

lemma Solvent.publish (hs : s.Solvent h owed) (event : TrafficEvent) :
    (s.publish event).Solvent h owed := by
  obtain ⟨reserve, hs⟩ := hs
  exact ⟨reserve, hs.publish event⟩

lemma Solvent.quiet (hs : s.Solvent h owed) (hq : Quiet s t) : t.Solvent h owed := by
  obtain ⟨reserve, hs⟩ := hs
  exact ⟨reserve, hs.quiet hq⟩

lemma Solvent.mono (hs : s.Solvent h owed) (hd : due ≤ owed) : s.Solvent h due := by
  obtain ⟨reserve, hs⟩ := hs
  exact ⟨reserve, hs.unlent, hs.backed, fun k => (add_le_add le_rfl (hd k)).trans (hs.kept k)⟩

lemma Holds.solvent_of_balance (hs : s.Holds h reserve owed)
    (hd : ∀ k, reserve k + due k ≤ s.tokens.balance k h.self) : s.Solvent h due :=
  ⟨reserve, hs.unlent, hs.backed, hd⟩

lemma Holds.ledger (hs : s.Holds h reserve owed) {ledger : Ledger Address Address}
    {gain : Address → ℤ} (hu : ledger.Unlent h.self)
    (hg : ∀ k, s.tokens.balance k h.self + gain k ≤ ledger.balance k h.self) :
    ({ s with tokens := ledger } : Traffic).Holds h reserve (owed + gain) := by
  refine ⟨hu, hs.backed, fun k => ?_⟩
  have hk := hs.kept k
  have hl := hg k
  simp only [Pi.add_apply]
  omega

lemma Holds.others (hs : s.Holds h reserve owed) (calls : List (TokenCall Address Address)) :
    ({ s with tokens := s.tokens.others h.self calls } : Traffic).Holds h reserve owed :=
  ⟨Ledger.others_unlent hs.unlent calls, hs.backed, fun k =>
    (hs.kept k).trans (Ledger.others_balance hs.unlent calls k)⟩

lemma refund_setRefundBalance (t : Traffic) (user token : Address) (balance : Option ℤ)
    (k : Address) : ((t.setRefundBalance user token balance).refund · k) =
      if k = token then Function.update (t.refund · k) user (balance.getD 0)
      else (t.refund · k) := by
  funext v
  split_ifs with hk
  · by_cases hv : v = user
    · simp [refund, setRefundBalance, hk, hv]
    · simp [refund, setRefundBalance, hv]
  · simp [refund, setRefundBalance, hk]

/-- What is owed may be credited instead of paid. -/
lemma Solvent.credit (hs : t.Solvent h (owed + Pi.single k n)) (hn : 0 ≤ n) :
    (t.setRefundBalance u k (some (t.refund u k + n))).Solvent h owed := by
  obtain ⟨reserve, hs⟩ := hs
  refine ⟨reserve + Pi.single k n, hs.unlent, fun l => ?_, fun l => ?_⟩
  · rw [refund_setRefundBalance]
    split_ifs with hl
    · subst hl
      simpa using (hs.backed l).credit u hn
    · simpa [hl] using hs.backed l
  · have hl := hs.kept l
    simp only [Pi.add_apply] at hl ⊢
    change _ ≤ t.tokens.balance l h.self
    omega

lemma Solvent.debit (hs : t.Solvent h owed) (hn : n ≤ t.refund u k) {balance : Option ℤ}
    (hb : balance.getD 0 = t.refund u k - n) :
    (t.setRefundBalance u k balance).Solvent h (owed + Pi.single k n) := by
  obtain ⟨reserve, hs⟩ := hs
  refine ⟨reserve - Pi.single k n, hs.unlent, fun l => ?_, fun l => ?_⟩
  · rw [refund_setRefundBalance]
    split_ifs with hl
    · subst hl
      simpa [hb] using (hs.backed l).debit u hn
    · simpa [hl] using hs.backed l
  · have hl := hs.kept l
    simp only [Pi.add_apply, Pi.sub_apply] at hl ⊢
    change _ ≤ t.tokens.balance l h.self
    omega

/-- The reserve is all that is held beyond what is owed. -/
def Counted (h : Host) (reserve owed : Address → ℤ) (t : Traffic) : Prop :=
  t.Holds h reserve owed ∧ ∀ k, t.tokens.balance k h.self = reserve k + owed k

lemma Solvent.counted (hs : t.Solvent h owed) : ∃ reserve, t.Counted h reserve owed := by
  obtain ⟨reserve, hs⟩ := hs
  refine ⟨fun k => t.tokens.balance k h.self - owed k, ⟨hs.unlent, fun k => ?_, fun k => ?_⟩,
    fun k => (sub_add_cancel _ _).symm⟩
  · exact (hs.backed k).mono (le_sub_iff_add_le.mpr (hs.kept k))
  · exact (sub_add_cancel _ _).le

/-- What a balance has gained since it was counted is owed to whoever sent it in. -/
lemma Holds.gained (hs : t.Holds h reserve owed) (k : Address) :
    t.Solvent h (owed + Pi.single k (t.tokens.balance k h.self - (reserve k + owed k))) := by
  refine hs.solvent_of_balance fun l => ?_
  rw [Pi.add_apply, Pi.single_apply]
  split_ifs with hl
  · subst hl
    omega
  · simpa using hs.kept l

end Traffic

section Calls

variable {h : Host} {env : Env} {s t : Traffic} {call : TokenCall Address Address}
  {contract : Address} {reply : Reply} {u : Unit}

lemma nextReply_ok : nextReply env s = .ok (reply, t) ↔
    reply = env.reply s.calls ∧ t = { s with calls := s.calls + 1 } := by
  simp [nextReply]

lemma token_ok (hr : token h env call s = .ok (u, t)) : ∃ ledger, s.tokens.apply call = some ledger ∧
    consents h env call = true ∧ t = ({ s with tokens := ledger, calls := s.calls + 1 } :
      Traffic).publish (.moved call) := by
  obtain ⟨_, v, hd, hr⟩ := Tx.bind_ok.mp hr
  obtain ⟨rfl, rfl⟩ := Tx.demand_ok.mp hr
  obtain ⟨reply, w, hw, hd⟩ := Tx.bind_ok.mp hd
  obtain ⟨rfl, rfl⟩ := nextReply_ok.mp hw
  rw [Tx.read_bind] at hd
  cases hl : s.tokens.apply call with
  | none => simp [hl] at hd
  | some ledger =>
    simp only [hl] at hd
    split_ifs at hd with ha
    · obtain ⟨-, rfl⟩ := Tx.pure_ok.mp hd
      exact ⟨ledger, rfl, ha.2, rfl⟩
    · simp at hd

lemma invokeContract_ok (hr : invokeContract h env contract s = .ok (reply, t)) :
    reply = env.reply s.calls ∧
      t = ({ s with tokens := s.tokens.others h.self reply.calls, calls := s.calls + 1 } :
        Traffic).publish (.invoked contract) := by
  obtain ⟨answer, v, hv, hr⟩ := Tx.bind_ok.mp hr
  obtain ⟨_, w, hw, hv⟩ := Tx.bind_ok.mp hv
  obtain ⟨rfl, rfl⟩ := nextReply_ok.mp hw
  split_ifs at hv
  · obtain ⟨rfl, rfl⟩ := Tx.pure_ok.mp hv
    obtain ⟨rfl, rfl⟩ := Tx.pure_ok.mp hr
    exact ⟨rfl, rfl⟩
  · obtain ⟨rfl, rfl⟩ := Tx.pure_ok.mp hv
    simp at hr

end Calls

section Primitives

variable {h : Host} {env : Env} {reserve owed gain : Address → ℤ} {k u : Address} {n : ℤ}
  {α β : Type} {m : Routing α} {f : α → Routing β} {Q : β → Traffic → Prop}
  {call : TokenCall Address Address}

open Traffic

lemma solvent_pass (hm : Tx.Respects Quiet m)
    (hf : ∀ a, Tx.Ensures (Solvent h owed) (f a) Q) : Tx.Ensures (Solvent h owed) (m >>= f) Q :=
  .pass (fun _ _ hq hs => hs.quiet hq) hm hf

lemma tryToken_ensures {P Q : Traffic → Prop} (hp : ∀ s t, Quiet s t → P s → P t)
    (hq : ∀ s event, Q s → Q (s.publish event))
    (hc : ∀ s ledger, P s → s.tokens.apply call = some ledger → Q { s with tokens := ledger }) :
    Tx.Ensures P (tryToken h env call) fun done s => if done = true then Q s else P s := by
  refine .pass hp .nextReply fun reply => .read fun ledger => ?_
  cases hl : ledger.apply call with
  | none => exact .pure fun s hs => by simpa using hs.1
  | some left =>
    dsimp only
    split_ifs with ha
    · refine .bind (Q := fun _ => Q) (.update fun s hs => ?_) fun _ => ?_
      · obtain ⟨hs, rfl⟩ := hs
        exact hq _ _ (hc s left hs hl)
      · exact .pure fun s hs => by simpa using hs
    · exact .pure fun s hs => by simpa using hs.1

lemma tryToken_holds (hc : call.Gains h.self gain) :
    Tx.Ensures (Holds h reserve owed) (tryToken h env call) fun done =>
      Holds h reserve (if done = true then owed + gain else owed) := by
  refine (tryToken_ensures (P := Holds h reserve owed) (Q := Holds h reserve (owed + gain))
    (fun _ _ hq hs => hs.quiet hq) (fun _ event hs => hs.publish event) fun s ledger hs hl => ?_).mono
      (fun _ hs => hs) fun done s hs => ?_
  · obtain ⟨hu, hg⟩ := hc _ _ hs.unlent hl
    exact hs.ledger hu hg
  · cases done <;> simpa using hs

lemma token_holds (hc : call.Gains h.self gain) :
    Tx.Ensures (Holds h reserve owed) (token h env call) fun _ => Holds h reserve (owed + gain) := by
  refine .bind (tryToken_holds hc) fun done => .of_demand fun hd s hs => ?_
  simpa [hd] using hs

lemma invoke_holds {contract : Address} :
    Tx.Ensures (Holds h reserve owed) (invoke h env contract) fun _ => Holds h reserve owed := by
  refine .pass (fun _ _ hq hs => hs.quiet hq) .nextReply fun reply => ?_
  split_ifs with ha
  · exact .bind (.update fun s hs => (hs.others reply.calls).publish _) fun _ => .pure fun _ hs => hs
  · exact .pure fun _ hs => hs

lemma token_solvent (hc : call.Gains h.self gain) :
    Tx.Ensures (Solvent h owed) (token h env call) fun _ => Solvent h (owed + gain) :=
  .fix fun reserve => (token_holds hc).mono (fun _ hs => hs) fun _ _ hs => ⟨reserve, hs⟩

lemma tryToken_idle (hc : call.Gains h.self 0) :
    Tx.Ensures (Solvent h owed) (tryToken h env call) fun _ => Solvent h owed :=
  .fix fun reserve => (tryToken_holds hc).mono (fun _ hs => hs) fun done _ hs =>
    ⟨reserve, by simpa using hs⟩

lemma tryToken_solvent (hc : call.Gains h.self gain) :
    Tx.Ensures (Solvent h owed) (tryToken h env call) fun done =>
      Solvent h (if done = true then owed + gain else owed) :=
  .fix fun reserve => (tryToken_holds hc).mono (fun _ hs => hs) fun _ _ hs => ⟨reserve, hs⟩

lemma token_idle (hc : call.Gains h.self 0) :
    Tx.Ensures (Solvent h owed) (token h env call) fun _ => Solvent h owed := by
  have ht : Tx.Ensures (Solvent h owed) (token h env call) fun _ => Solvent h (owed + 0) :=
    token_solvent hc
  rwa [add_zero] at ht

lemma add_single_neg : owed + Pi.single k n + Pi.single k (-n) = owed := by
  rw [add_assoc, ← Pi.single_add, add_neg_cancel, Pi.single_zero, add_zero]

lemma token_pays {target : Address} :
    Tx.Ensures (Solvent h (owed + Pi.single k n)) (token h env (.transfer k h.self target n))
      fun _ => Solvent h owed := by
  have ht : Tx.Ensures _ (token h env (.transfer k h.self target n)) fun _ =>
      Solvent h (owed + Pi.single k n + Pi.single k (-n)) :=
    token_solvent TokenCall.gains_transfer_out
  rwa [add_single_neg] at ht

lemma token_settles {target : Address} (hn : 0 ≤ n) :
    Tx.Ensures (Solvent h (owed + Pi.single k n))
      (Tx.whenever (0 < n) (token h env (.transfer k h.self target n))) fun _ => Solvent h owed := by
  refine .whenever (fun _ => token_pays) fun hz s hs => ?_
  have h0 : n = 0 := by omega
  simpa [h0] using hs

lemma creditRefundBalance_solvent (hn : 0 ≤ n) :
    Tx.Ensures (Solvent h (owed + Pi.single k n)) (creditRefundBalance u k n)
      fun _ => Solvent h owed := by
  refine .read fun balance => checkedI128_ensures (.update fun s hs => ?_)
  obtain ⟨hs, rfl⟩ := hs
  exact (hs.credit hn).publish _

/-- Counting first fixes the reserve that later balances are measured against. -/
lemma counted_ensures {Q : α → Traffic → Prop}
    (hm : ∀ reserve, Tx.Ensures (Counted h reserve owed) m Q) :
    Tx.Ensures (Solvent h owed) m Q := by
  intro s a t hs hr
  obtain ⟨reserve, hs⟩ := hs.counted
  exact hm reserve s a t hs hr

lemma balanceOf_counted {g : ℤ → Routing β}
    (hg : Tx.Ensures (Counted h reserve owed) (g (reserve k + owed k)) Q) :
    Tx.Ensures (Counted h reserve owed) (balanceOf k h.self >>= g) Q := by
  refine .read fun balance s b t hs hr => ?_
  obtain ⟨hs, rfl⟩ := hs
  exact hg s b t hs (hs.2 k ▸ hr)

lemma withGuard_guarded {P : Traffic → Prop} {Q : α → Traffic → Prop}
    (hp : ∀ s held, P s → P { s with reentrancyGuard := held })
    (hq : ∀ a s held, Q a s → Q a { s with reentrancyGuard := held })
    (hm : Tx.Ensures P m Q) : Tx.Ensures P (withGuard m) Q := by
  refine .bind (Q := fun _ => P) (.of_respects (R := Eq) (.read _) fun _ _ he hs => he ▸ hs) ?_
  refine fun _ => .reject fun _ => .bind (Q := fun _ => P) (.update fun s hs => hp s _ hs) fun _ => ?_
  exact .bind hm fun a => .bind (Q := fun _ => Q a) (.update fun s hs => hq a s _ hs) fun _ =>
    .pure fun _ hs => hs

lemma withGuard_ensures {P : Traffic → Prop} {Q : α → Traffic → Prop}
    (hp : ∀ s t, Quiet s t → P s → P t) (hq : ∀ a s t, Quiet s t → Q a s → Q a t)
    (hm : Tx.Ensures P m Q) : Tx.Ensures P (withGuard m) Q :=
  withGuard_guarded (fun s _ hs => hp s _ ⟨rfl, rfl, rfl⟩ hs)
    (fun a s _ hs => hq a s _ ⟨rfl, rfl, rfl⟩ hs) hm

lemma invokeContract_holds {contract : Address} :
    Tx.Ensures (Holds h reserve owed) (invokeContract h env contract)
      fun _ => Holds h reserve owed := by
  refine .bind invoke_holds fun reply => ?_
  cases reply with
  | some reply => exact .pure fun _ hs => hs
  | none => exact .trap

end Primitives

end StellarTags.Router
