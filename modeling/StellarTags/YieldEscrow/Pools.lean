import StellarTags.Library.Apportionment
import StellarTags.YieldEscrow.Effects

/-! Honest strategies and tokens: the tests' lending pool, one for each address. -/

namespace StellarTags.YieldEscrow

open Library.Transactions Library.Integers Library.Apportionment Soroban

/-- What each strategy keeps of each token for the contract, and at what rate; and what each token
has in each account. Nothing is ever negative. -/
structure Pools where
  principal : Address × Address → ℕ
  accrued : Address × Address → ℕ
  rate : Address × Address → U32
  holdings : Address × Address → ℕ

namespace Pools

variable (w : Pools)

def balance (slot : Address × Address) : ℕ := w.principal slot + w.accrued slot

def credit (token account : Address) (n : ℕ) : Pools :=
  { w with
    holdings := Function.update w.holdings (token, account) (w.holdings (token, account) + n) }

def debit (token account : Address) (n : ℕ) : Pools :=
  { w with
    holdings := Function.update w.holdings (token, account) (w.holdings (token, account) - n) }

def transfer (token source target : Address) (amount : ℤ) : Option Pools :=
  if 0 ≤ amount ∧ amount ≤ w.holdings (token, source) then
    some ((w.debit token source amount.toNat).credit token target amount.toNat)
  else none

/-- The principal pays first, and what it cannot the yield does. -/
def spend (slot : Address × Address) (n : ℕ) : Pools :=
  { w with
    principal := Function.update w.principal slot (w.principal slot - n)
    accrued := Function.update w.accrued slot (w.accrued slot - (n - w.principal slot)) }

def deposit (strategy source token : Address) (amount : ℤ) : Option Pools :=
  if 0 ≤ amount ∧ amount ≤ w.holdings (token, source) then
    some { w.debit token source amount.toNat with
      principal := Function.update w.principal (strategy, token)
        (w.principal (strategy, token) + amount.toNat) }
  else none

def withdraw (strategy target token : Address) (amount : ℤ) : Option Pools :=
  if 0 ≤ amount ∧ amount ≤ w.balance (strategy, token) then
    some ((w.spend (strategy, token) amount.toNat).credit token target amount.toNat)
  else none

def harvest (strategy target token : Address) : Option (I128 × Pools) :=
  if h : FitsI128 (w.accrued (strategy, token)) then
    some (⟨w.accrued (strategy, token), h⟩,
      { w.credit token target (w.accrued (strategy, token)) with
        accrued := Function.update w.accrued (strategy, token) 0 })
  else none

/-- An amount, if the call can return it. -/
def report (n : ℕ) : Option (I128 × Pools) :=
  if h : FitsI128 (n : ℤ) then some (⟨n, h⟩, w) else none

end Pools

def honest (self : Address) : Deployment Pools where
  self := self
  deposit strategy source token amount w := w.deposit strategy source token amount
  withdraw strategy target token amount w := w.withdraw strategy target token amount
  harvest strategy target token w := w.harvest strategy target token
  yieldRateBps strategy token w := some (w.rate (strategy, token), w)
  getBalance strategy token w := w.report (w.balance (strategy, token))
  balance token account w := w.report (w.holdings (token, account))
  transfer token source target amount w := w.transfer token source target amount

variable {self strategy token source target : Address} {w w' : Pools} {n : ℤ} {m m' : Machine Pools}

lemma fitsI128_of_nonneg (h : 0 ≤ n) : FitsI128 n ↔ n ≤ maxI128 :=
  ⟨And.right, fun hn => ⟨le_trans (by decide) h, hn⟩⟩

namespace Pools

lemma report_ok {k : ℕ} {x : I128} : w.report k = some (x, w') ↔ x.val = k ∧ w' = w := by
  rw [report]
  split_ifs with h
  · simp [Subtype.ext_iff, eq_comm]
  · simp only [false_iff]
    rintro ⟨hx, -⟩
    exact h (hx ▸ x.property)

lemma transfer_ok : w.transfer token source target n = some w' ↔
    0 ≤ n ∧ n ≤ w.holdings (token, source) ∧
      w' = (w.debit token source n.toNat).credit token target n.toNat := by
  simp [transfer, and_assoc, eq_comm]

lemma withdraw_ok : w.withdraw strategy target token n = some w' ↔
    0 ≤ n ∧ n ≤ w.balance (strategy, token) ∧
      w' = (w.spend (strategy, token) n.toNat).credit token target n.toNat := by
  simp [withdraw, and_assoc, eq_comm]

lemma harvest_ok {x : I128} : w.harvest strategy target token = some (x, w') ↔
    x.val = w.accrued (strategy, token) ∧
      w' = { w.credit token target (w.accrued (strategy, token)) with
        accrued := Function.update w.accrued (strategy, token) 0 } := by
  rw [harvest]
  split_ifs with h
  · simp [Subtype.ext_iff, eq_comm]
  · simp only [false_iff]
    rintro ⟨hx, -⟩
    exact h (hx ▸ x.property)

@[simp] lemma spend_zero (w : Pools) (slot : Address × Address) : w.spend slot 0 = w := by
  simp [spend]

@[simp] lemma credit_zero (w : Pools) (token account : Address) : w.credit token account 0 = w := by
  simp [credit]

/-- What a strategy has left to harvest when the amount is withdrawn. -/
def yieldLeft (w : Pools) (token : Address) (draw : Address × ℤ) : ℕ :=
  w.accrued (draw.1, token) - (draw.2.toNat - w.principal (draw.1, token))

/-- Withdraw from a strategy, and harvest it. -/
def draw (self token : Address) (w : Pools) (draw : Address × ℤ) : Pools :=
  { w with
    principal := Function.update w.principal (draw.1, token)
      (w.principal (draw.1, token) - draw.2.toNat)
    accrued := Function.update w.accrued (draw.1, token) 0
    holdings := Function.update w.holdings (token, self)
      (w.holdings (token, self) + draw.2.toNat + w.yieldLeft token draw) }

end Pools

lemma getBalance_honest {k : ℤ} : getBalance (honest self) strategy token m = .ok (k, m') ↔
    m.world.balance (strategy, token) ≤ maxI128 ∧ k = m.world.balance (strategy, token) ∧
      m' = m := by
  simp only [getBalance, Tx.bind_ok, ask_ok, Tx.pure_ok, honest, Pools.report_ok]
  constructor
  · rintro ⟨x, _, ⟨_, ⟨hx, rfl⟩, rfl⟩, rfl, rfl⟩
    exact ⟨hx ▸ x.property.2, hx, rfl⟩
  · rintro ⟨hfits, rfl, rfl⟩
    have hnonneg : (0 : ℤ) ≤ m'.world.balance (strategy, token) := by positivity
    exact ⟨⟨_, (fitsI128_of_nonneg hnonneg).mpr hfits⟩, _, ⟨_, ⟨rfl, rfl⟩, rfl⟩, rfl, rfl⟩

/-- Only the world is another. -/
def Machine.turn (m : Machine Pools) (world : Pools) : Machine Pools := { m with world := world }

lemma withdraw_honest {u : Unit} (hn : 0 ≤ n) :
    Tx.whenever (0 < n) (withdraw (honest self) strategy token n) m = .ok (u, m') ↔
      n ≤ m.world.balance (strategy, token) ∧
        m' = m.turn ((m.world.spend (strategy, token) n.toNat).credit token self n.toNat) := by
  rw [Tx.whenever_ok, withdraw, order_ok]
  simp only [honest, Pools.withdraw_ok]
  constructor
  · rintro (⟨-, _, ⟨-, hle, rfl⟩, rfl⟩ | ⟨hzero, rfl⟩)
    · exact ⟨hle, rfl⟩
    · obtain rfl : n = 0 := by omega
      exact ⟨by positivity, by simp [Machine.turn]⟩
  · rintro ⟨hle, rfl⟩
    by_cases hpos : 0 < n
    · exact Or.inl ⟨hpos, _, ⟨hn, hle, rfl⟩, rfl⟩
    · obtain rfl : n = 0 := by omega
      exact Or.inr ⟨hpos, by simp [Machine.turn]⟩

lemma harvest_honest {k : ℤ} : harvest (honest self) strategy token m = .ok (k, m') ↔
    m.world.accrued (strategy, token) ≤ maxI128 ∧ k = m.world.accrued (strategy, token) ∧
      m' = m.turn { m.world.credit token self (m.world.accrued (strategy, token)) with
        accrued := Function.update m.world.accrued (strategy, token) 0 } := by
  simp only [harvest, Tx.bind_ok, ask_ok, Tx.pure_ok, honest, Pools.harvest_ok]
  constructor
  · rintro ⟨x, _, ⟨_, ⟨hx, rfl⟩, rfl⟩, rfl, rfl⟩
    exact ⟨hx ▸ x.property.2, hx, rfl⟩
  · rintro ⟨hfits, rfl, rfl⟩
    have hnonneg : (0 : ℤ) ≤ m.world.accrued (strategy, token) := by positivity
    exact ⟨⟨_, (fitsI128_of_nonneg hnonneg).mpr hfits⟩, _, ⟨_, ⟨rfl, rfl⟩, rfl⟩, rfl, rfl⟩

lemma draw_bind_ok {β : Type} {r : β} {j : ℤ → Tx (Machine Pools) Error β} (hn : 0 ≤ n) :
    (Tx.whenever (0 < n) (withdraw (honest self) strategy token n) >>= fun _ =>
      harvest (honest self) strategy token >>= j) m = .ok (r, m') ↔
      n ≤ m.world.balance (strategy, token) ∧
        m.world.yieldLeft token (strategy, n) ≤ maxI128 ∧
        j (m.world.yieldLeft token (strategy, n))
          (m.turn (m.world.draw self token (strategy, n))) = .ok (r, m') := by
  simp only [Tx.bind_unit_ok, withdraw_honest hn, Tx.bind_ok (m := harvest _ _ _), harvest_honest]
  have hleft (w : Pools) : ((w.spend (strategy, token) n.toNat).credit token self n.toNat).accrued
      (strategy, token) = w.yieldLeft token (strategy, n) := by
    simp [Pools.credit, Pools.spend, Pools.yieldLeft]
  have hdraw : (m.turn ((m.world.spend (strategy, token) n.toNat).credit token self n.toNat)).turn
      { ((m.world.spend (strategy, token) n.toNat).credit token self n.toNat).credit token self
          (m.world.yieldLeft token (strategy, n)) with
        accrued := Function.update ((m.world.spend (strategy, token) n.toNat).credit token self
          n.toNat).accrued (strategy, token) 0 } = m.turn (m.world.draw self token (strategy, n)) := by
    simp [Machine.turn, Pools.credit, Pools.spend, Pools.draw]
  rw [← hdraw]
  constructor
  · rintro ⟨_, ⟨hle, rfl⟩, _, _, ⟨hfits, rfl, rfl⟩, h⟩
    rw [Machine.turn, hleft] at hfits h
    exact ⟨hle, hfits, h⟩
  · rintro ⟨hle, hfits, h⟩
    refine ⟨_, ⟨hle, rfl⟩, _, _, ⟨?_, rfl, rfl⟩, ?_⟩
    · rwa [Machine.turn, hleft]
    · rwa [Machine.turn, hleft]

section Draws

variable {draw : Address × ℤ}

lemma Pools.balance_draw (h : strategy ≠ draw.1) :
    (w.draw self token draw).balance (strategy, token) = w.balance (strategy, token) := by
  simp [Pools.balance, Pools.draw, h]

lemma Pools.yieldLeft_draw {other : Address × ℤ} (h : other.1 ≠ draw.1) :
    (w.draw self token draw).yieldLeft token other = w.yieldLeft token other := by
  simp [Pools.yieldLeft, Pools.draw, h]

def Pools.draws (self token : Address) (w : Pools) (draws : List (Address × ℤ)) : Pools :=
  draws.foldl (Pools.draw self token) w

variable {draws : List (Address × ℤ)}

lemma Pools.draws_of_notMem (self token : Address) (w : Pools) (h : strategy ∉ draws.map Prod.fst) :
    (w.draws self token draws).principal (strategy, token) = w.principal (strategy, token) ∧
      (w.draws self token draws).accrued (strategy, token) = w.accrued (strategy, token) := by
  induction draws generalizing w with
  | nil => exact ⟨rfl, rfl⟩
  | cons d rest ih =>
    rw [List.map_cons, List.mem_cons, not_or] at h
    obtain ⟨hprincipal, haccrued⟩ := ih (w.draw self token d) h.2
    rw [Pools.draws, List.foldl_cons]
    exact ⟨hprincipal.trans (by simp [Pools.draw, h.1]), haccrued.trans (by simp [Pools.draw, h.1])⟩

lemma Pools.rate_draws : (w.draws self token draws).rate = w.rate := by
  induction draws generalizing w with
  | nil => rfl
  | cons d rest ih => exact ih (w := w.draw self token d)

lemma Pools.draws_of_mem (hdistinct : (draws.map Prod.fst).Nodup) (hd : draw ∈ draws) :
    (w.draws self token draws).principal (draw.1, token) =
        w.principal (draw.1, token) - draw.2.toNat ∧
      (w.draws self token draws).accrued (draw.1, token) = 0 := by
  induction draws generalizing w with
  | nil => cases hd
  | cons d rest ih =>
    rw [List.map_cons, List.nodup_cons] at hdistinct
    rw [Pools.draws, List.foldl_cons]
    rcases List.mem_cons.mp hd with rfl | hd
    · obtain ⟨hprincipal, haccrued⟩ :=
        Pools.draws_of_notMem self token (w.draw self token draw) hdistinct.1
      exact ⟨hprincipal.trans (by simp [Pools.draw]), haccrued.trans (by simp [Pools.draw])⟩
    · have hne : draw.1 ≠ d.1 := by
        intro heq
        exact hdistinct.1 (heq ▸ List.mem_map_of_mem hd)
      obtain ⟨hprincipal, haccrued⟩ := ih (w := w.draw self token d) hdistinct.2 hd
      exact ⟨hprincipal.trans (by simp [Pools.draw, hne]), haccrued⟩

lemma Pools.holdings_draws (self token : Address) (w : Pools) (hdistinct : (draws.map Prod.fst).Nodup) :
    (w.draws self token draws).holdings (token, self) = w.holdings (token, self) +
      (draws.map fun d => d.2.toNat).sum + (draws.map (w.yieldLeft token)).sum := by
  induction draws generalizing w with
  | nil => simp [Pools.draws]
  | cons d rest ih =>
    rw [List.map_cons, List.nodup_cons] at hdistinct
    have hrest : rest.map ((w.draw self token d).yieldLeft token) = rest.map (w.yieldLeft token) := by
      apply List.map_congr_left
      intro other hother
      apply Pools.yieldLeft_draw
      intro heq
      exact hdistinct.1 (heq ▸ List.mem_map_of_mem hother)
    have hsum := ih (w.draw self token d) hdistinct.2
    rw [Pools.draws, List.foldl_cons]
    rw [Pools.draws, hrest] at hsum
    rw [hsum]
    simp only [Pools.draw, Function.update_self, List.map_cons, List.sum_cons]
    omega

end Draws

section Examples

def Pools.accrue (strategy token : Address) (n : ℕ) (w : Pools) : Pools :=
  { w with accrued := Function.update w.accrued (strategy, token) (w.accrued (strategy, token) + n) }

/-- Every strategy yields a tenth a year, and `⟨2⟩` has ten thousand of the token `⟨9⟩`. -/
def tenth : Pools where
  principal _ := 0
  accrued _ := 0
  rate _ := ⟨1000, by decide⟩
  holdings slot := if slot = (⟨9⟩, ⟨2⟩) then 10000 else 0

def signed : Env := { auth := fun _ => true }

def create (escrowId : ℕ) : Move Pools :=
  .call signed (.createEscrow escrowId ⟨2⟩ ⟨3⟩ ⟨9⟩ ⟨1000, fitsI128_thousand⟩ 10 5000)

end Examples

end StellarTags.YieldEscrow
