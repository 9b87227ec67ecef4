import StellarTags.YieldEscrow.Books
import StellarTags.YieldEscrow.Pools

/-! What settlements pay once the contract is in an emergency. -/

namespace StellarTags.YieldEscrow

open Library.Transactions Library.Integers Library.Runs Soroban

variable {W : Type} {d : Deployment W} {R : W → W → Prop} {m m' : Machine W} {env : Env} {op : Op}
  {escrowId : ℕ} {record : Escrow}

def Op.withdraws (op : Op) (escrowId : ℕ) : Prop :=
  op = .emergencyWithdrawPrincipal escrowId ∨ op = .emergencyWithdraw escrowId

lemma Effect.rescue (h : Effect d R env m m' op) (hop : op.subject = some (escrowId, true))
    (hemergency : m.store.emergencyVaultMode = true) :
    ∃ record settled party y vault, Settles env escrowId record op party settled ∧
      Closed d escrowId record settled y [(party, min vault.val record.principal)] m m' ∧
      Rescue d record party vault m m' ∧
      (op.withdraws escrowId → 0 < min vault.val record.principal) := by
  cases h with
  | redeemed _ hnormal _ _ _ => simp [hemergency] at hnormal
  | rescued hsettles _ _ hclose hrescue hliquid _ =>
    rw [hsettles.subject] at hop
    obtain ⟨rfl, -⟩ := Prod.mk.inj (Option.some.inj hop)
    refine ⟨_, _, _, _, _, hsettles, hclose, hrescue, fun hwithdraws => ?_⟩
    apply hliquid <;> rcases hwithdraws with rfl | rfl <;> simp
  | ported hnone _ _ _ _ | thresholded hnone _ | looked hnone _ => simp [hnone] at hop
  | opened _ _ _ => simp [Op.subject] at hop
  | _ => cases hop

/-- A call closes an escrow in an emergency: it is one of the four settlements, each with its own
party to pay, and for the payer's with the payer's authorisation. If the vault has anything the party
gets a part of the principal, as large as the vault can pay, and the escrow has no claim any more;
the payer's withdrawals of principal never close one for nothing. -/
structure Haircut (d : Deployment W) (m m' : Machine W) (env : Env) (op : Op) (escrowId : ℕ)
    (record settled : Escrow) (party : Address) (vault : I128) : Prop where
  settles : Settles env escrowId record op party settled
  asked : ∃ world, d.balance record.token d.self m.world = some (vault, world)
  paid : 0 < vault.val → 0 < min vault.val record.principal ∧
    m'.transfers = ⟨record.token, d.self, party, min vault.val record.principal⟩ :: m.transfers
  withdrawn : op.withdraws escrowId → 0 < vault.val
  closed : settled.isActive = false ∧
    ∀ later, (run (step d) m' later).store.escrow escrowId = some settled
  others : ∀ id, id ≠ escrowId → m'.store.escrow id = m.store.escrow id

lemma paid_of_pos {token party : Address} {n : ℤ} (hn : 0 < n) :
    d.paid token [(party, n)] = [⟨token, d.self, party, n⟩] := by
  simp [Deployment.paid, hn]

lemma ClosesBook.others {s t : State} {settled : Escrow}
    (h : ClosesBook escrowId record settled s t) (id : ℕ) (hid : id ≠ escrowId) :
    t.escrow id = s.escrow id := by
  rw [h.escrow, Function.update_of_ne hid]

lemma step_haircut (hheld : PortfolioHeld m.store) (hbalanced : Balanced m.store)
    (hemergency : m.store.emergencyVaultMode = true)
    (hfound : m.store.escrow escrowId = some record) (move : Move W)
    (hclosed : (step d move m).store.escrow escrowId ≠ some record) :
    ∃ env op settled party vault, move = .call env op ∧
      Haircut d m (step d move m) env op escrowId record settled party vault := by
  cases move with
  | outside f => exact absurd hfound hclosed
  | call env op =>
    have hheld' := step_portfolio d (.call env op) hheld
    rcases step_cases d.keepsAnywhere env op m with heq | he
    · rw [heq] at hclosed
      exact absurd hfound hclosed
    generalize step d (.call env op) m = m' at he hclosed hheld'
    rcases he.books fun h => (hheld.fresh h).2 with ⟨-, hsame, -⟩ | ⟨id, r, -, hopened, -⟩ |
      ⟨id, r, settled, party, payments, hop, -, hcloses, -⟩
    · rw [hsame.escrow] at hclosed
      exact absurd hfound hclosed
    · have hnormal := hopened.normal
      simp [hemergency] at hnormal
    · obtain rfl : id = escrowId := by
        by_contra hid
        rw [hcloses.others _ (Ne.symm hid)] at hclosed
        exact hclosed hfound
      obtain ⟨r, settled, party, y, vault, hsettles, hclose, ⟨world, hasked, -⟩, hliquid⟩ :=
        he.rescue hop hemergency
      obtain rfl : record = r := by
        have hr := hclose.found
        rw [hfound] at hr
        exact Option.some.inj hr
      have hescrow : m'.store.escrow = Function.update m.store.escrow id (some settled) := by
        obtain ⟨rate, event, hstore⟩ := hclose.store
        rw [hstore]
        rfl
      have hinactive : settled.isActive = false := by
        rcases hsettles.flagged with rfl | rfl <;> simp [Escrow.isActive]
      have hprincipal := hbalanced.positive id record hfound
      refine ⟨env, op, settled, party, vault, rfl, hsettles, ⟨world, hasked⟩, fun hvault => ?_,
        fun hwithdraws => ?_, ⟨hinactive, fun later => ?_⟩, fun other hother => ?_⟩
      · have hpaid : 0 < min vault.val record.principal := lt_min hvault hprincipal
        exact ⟨hpaid, by rw [hclose.transfers, paid_of_pos hpaid]; rfl⟩
      · exact lt_of_lt_of_le (hliquid hwithdraws) (min_le_left _ _)
      · exact run_settled hheld' (by rw [hescrow, Function.update_self]) hinactive later
      · rw [hescrow, Function.update_of_ne hother]

/-- In every run and for every escrow that a step of it closes in an emergency. -/
theorem emergency_settlements (d : Deployment W) (world : W) (moves : List (Move W)) :
    Along (step d) (fun m move => m.store.emergencyVaultMode = true → ∀ escrowId record,
      m.store.escrow escrowId = some record → record.isActive = true →
        (step d move m).store.escrow escrowId ≠ some record →
          ∃ env op settled party vault, move = .call env op ∧
            Haircut d m (step d move m) env op escrowId record settled party vault)
      ⟨{}, [], world⟩ moves := by
  apply along_reachable (P := fun _ _ => True) _ (along_of_forall (step d) (fun _ _ => trivial) _ _)
  rintro m move ⟨before, rfl⟩ - hemergency escrowId record hfound - hclosed
  have hbalanced := (after_accounted d world before).1.2
  exact step_haircut (after_portfolio d world before) hbalanced hemergency hfound move hclosed

section Examples

/-- Two escrows of a thousand, of which the strategy has lost all but four hundred. -/
def unwound : List (Move Pools) :=
  [.call signed (.initialise ⟨1⟩ ⟨7⟩), create 1, create 2,
    .outside fun w => { w with principal := fun _ => 400 },
    .call signed (.emergencyUnwindStrategy ⟨0, fitsI128_zero⟩)]

/-- Then anyone closes the first for all that the vault has, and the second for nothing. Though the
vault has funds again, neither has a claim to them. -/
theorem emergency_release_for_nothing :
    (after (honest ⟨0⟩) tenth unwound).store.emergencyVaultMode = true ∧
    (after (honest ⟨0⟩) tenth (unwound ++ [.call {} (.release 1)])).transfers.head? =
      some ⟨⟨9⟩, ⟨0⟩, ⟨3⟩, 400⟩ ∧
    ((after (honest ⟨0⟩) tenth (unwound ++ [.call {} (.release 1)])).store.escrow 2).map
      Escrow.isActive = some true ∧
    (after (honest ⟨0⟩) tenth (unwound ++ [.call {} (.release 1), .call {} (.release 2)])).transfers =
      (after (honest ⟨0⟩) tenth (unwound ++ [.call {} (.release 1)])).transfers ∧
    ((after (honest ⟨0⟩) tenth (unwound ++ [.call {} (.release 1), .call {} (.release 2)])).store.escrow
      2).map Escrow.isActive = some false ∧
    ∀ escrowId ∈ [1, 2], ∀ op ∈ [Op.release escrowId, .cancel escrowId,
        .emergencyWithdrawPrincipal escrowId, .emergencyWithdraw escrowId],
      Tx.succeeds (op.invoke (honest ⟨0⟩) signed) (after (honest ⟨0⟩) tenth
        (unwound ++ [.call {} (.release 1), .call {} (.release 2),
          .outside fun w => w.credit ⟨9⟩ ⟨0⟩ 2000])) = false := by
  decide +kernel

end Examples

end StellarTags.YieldEscrow
