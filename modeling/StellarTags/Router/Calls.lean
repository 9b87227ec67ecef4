import StellarTags.Library.Runs
import StellarTags.Router.Configuration
import StellarTags.Router.Swaps
import StellarTags.Router.Administration

/-! The contract's entry points and its runs. -/

namespace StellarTags.Router

open Library.Transactions Library.Tokens Soroban

inductive AdminOp : Type
  | initializeRouter (admin platformTreasury : Address) (feeBps feeCap maxAmount : ℤ)
  | grantRole (admin grantee : Address) (role : Role)
  | revokeRole (admin grantee : Address) (role : Role)
  | assignRole (account : Address) (role : Role)
  | setAdmin (newAdmin : Address)
  | transferAdmin (newAdmin : Address)
  | setBackupAdminInternal (backup : Address) (timeoutSeconds : ℕ)
  | removeBackupAdmin
  | ping
  | claimAdmin (claimant : Address)
  | setHeartbeatOperator (operator : Address)
  | removeHeartbeatOperator
  | renewHeartbeat (operator : Address)

inductive ConfigOp : Type
  | emergencyFreeze
  | unfreeze
  | setRateLimit (maxCallsPerLedger : ℕ)
  | setRateLimitWhitelist (address : Address)
  | removeRateLimitWhitelist (address : Address)
  | setPlatformTreasury (newTreasury : Address)
  | setFeeConfig (feeBps feeCap : ℤ)
  | setFeeBps (newFeeBps : ℤ)
  | setGovernance (gov : Address)
  | configureGovernance (governanceToken : Address) (quorum : ℤ)
  | setMinLimit (minLimit : ℤ)
  | setPause (paused : Bool)
  | setPauseLevel (level : PauseLevel)
  | blacklistAddress (address : Address)
  | unblacklistAddress (address : Address)
  | setYieldProtocol (protocol : Address)
  | setKycConfig (oracle : Address) (threshold : ℤ)
  | setPriceOracle (oracle : Address)
  | setStalenessThreshold (thresholdSecs : ℕ)
  | setFallbackPrice (baseAsset quoteAsset : Address) (fallbackPrice : ℤ) (decimals : ℕ)
  | registerDex (dex : Address)
  | deregisterDex (dex : Address)
  | setMaxSlippageBps (maxSlippageBps : ℤ)
  | setPairMaxSlippageBps (tokenIn tokenOut : Address) (maxSlippageBps : ℤ)
  | proposeFeeChange (proposer : Address) (feeBps feeCap : ℤ) (votingPeriod : ℕ)
  | commitArchiveRoot (root : Hash) (leaves : List ArchiveLeaf) (description : String)

inductive TimelockOp : Type
  | queueAction (action : ActionType)
  | executeAction (nonce : ℕ)
  | executeBatchActions (nonces : List ℕ)
  | cancelAction (nonce : ℕ)

inductive GroupOp : Type
  | setMultisigConfig (signers : List Address) (threshold : ℕ)
  | approveMultisigConfig (signers : List Address) (threshold : ℕ) (signer : Address)
  | approveUpgrade (signer : Address) (newWasmHash : Hash)
  | revokeUpgradeApproval (signer : Address) (newWasmHash : Hash)
  | cancelUpgrade (newWasmHash : Hash)
  | upgrade (newWasmHash : Hash)

inductive RoutingOp : Type
  | routePayment (payment : Payment)
  | routePayments (payments : List Payment)
  | routePaymentMeta (payment : Payment) (signerPubkey : PublicKey) (nonce deadline : ℕ)
      (signature : Signature)
  | routePaymentWithQuote (sender recipient : Address) (quote : Quote) (makerPubkey : PublicKey)
      (signature : Signature)
  | routePaymentWithSwapRaw (sender recipient dexRouter tokenIn tokenOut : Address)
      (amountIn : ℤ) (path : List Address) (minAmountOut : ℤ)
  | routePaymentWithSwap (payment : SwapPayment)
  | routePaymentsWithSwap (payments : List SwapPayment)
  | routeSplitPaymentWithSwap (sender recipient sellToken buyToken : Address) (amountIn : ℤ)
      (splits : List SplitRoute)
  | routeMultihopSwap (sender recipient dex : Address) (amountIn : ℤ) (path : List Address)
      (floors : List ℤ)
  | quoteSwap (dex sellToken buyToken : Address)
  | withdrawRefund (user tokenAddress : Address) (amount : ℤ)
  | claimAllRefunds (user tokenAddress : Address)
  | migrateUserRecord (user : Address)

inductive TreasuryOp : Type
  | recoverTokens (tokenAddress : Address) (amount : ℤ)
  | emergencyWithdraw (tokenAddress : Address) (amount : ℤ)
  | depositToYield (tokenAddress : Address) (amount : ℤ)
  | withdrawFromYield (tokenAddress : Address) (amount : ℤ)
  | harvestYield
  | pruneArchivedEntries (committedEpoch : ℕ) (leaves : List ArchiveLeaf)

inductive Op : Type
  | administer (op : AdminOp)
  | configure (op : ConfigOp)
  | timelock (op : TimelockOp)
  | group (op : GroupOp)
  | route (op : RoutingOp)
  | treasury (op : TreasuryOp)
  /-- A call somebody else makes to a token contract. -/
  | outside (call : TokenCall Address Address)

def AdminOp.invoke (h : Host) (env : Env) : AdminOp → Tx State Error Unit
  | .initializeRouter admin platformTreasury feeBps feeCap maxAmount =>
    Router.initializeRouter h env admin platformTreasury feeBps feeCap maxAmount
  | .grantRole admin grantee role => Router.grantRole h env admin grantee role
  | .revokeRole admin grantee role => Router.revokeRole h env admin grantee role
  | .assignRole account role => Router.assignRole h env account role
  | .setAdmin newAdmin => Router.setAdmin h env newAdmin
  | .transferAdmin newAdmin => Router.transferAdmin h env newAdmin
  | .setBackupAdminInternal backup timeoutSeconds =>
    Router.setBackupAdminInternal h env backup timeoutSeconds
  | .removeBackupAdmin => Router.removeBackupAdmin h env
  | .ping => Router.ping h env
  | .claimAdmin claimant => Router.claimAdmin h env claimant
  | .setHeartbeatOperator operator => Router.setHeartbeatOperator h env operator
  | .removeHeartbeatOperator => Router.removeHeartbeatOperator h env
  | .renewHeartbeat operator => Router.renewHeartbeat h env operator

def ConfigOp.invoke (h : Host) (env : Env) : ConfigOp → Tx State Error Unit
  | .emergencyFreeze => Router.emergencyFreeze h env
  | .unfreeze => Router.unfreeze h env
  | .setRateLimit maxCallsPerLedger => Router.setRateLimit h env maxCallsPerLedger
  | .setRateLimitWhitelist address => Router.setRateLimitWhitelist h env address
  | .removeRateLimitWhitelist address => Router.removeRateLimitWhitelist h env address
  | .setPlatformTreasury newTreasury => Router.setPlatformTreasury h env newTreasury
  | .setFeeConfig feeBps feeCap => Router.setFeeConfig h env feeBps feeCap
  | .setFeeBps newFeeBps => Router.setFeeBps h env newFeeBps
  | .setGovernance gov => Router.setGovernance h env gov
  | .configureGovernance governanceToken quorum =>
    Router.configureGovernance h env governanceToken quorum
  | .setMinLimit minLimit => Router.setMinLimit h env minLimit
  | .setPause paused => Router.setPause h env paused
  | .setPauseLevel level => Router.setPauseLevel h env level
  | .blacklistAddress address => Router.blacklistAddress h env address
  | .unblacklistAddress address => Router.unblacklistAddress h env address
  | .setYieldProtocol protocol => Router.setYieldProtocol h env protocol
  | .setKycConfig oracle threshold => Router.setKycConfig h env oracle threshold
  | .setPriceOracle oracle => Router.setPriceOracle h env oracle
  | .setStalenessThreshold thresholdSecs => Router.setStalenessThreshold h env thresholdSecs
  | .setFallbackPrice baseAsset quoteAsset fallbackPrice decimals =>
    Router.setFallbackPrice h env baseAsset quoteAsset fallbackPrice decimals
  | .registerDex dex => Router.registerDex h env dex
  | .deregisterDex dex => Router.deregisterDex h env dex
  | .setMaxSlippageBps maxSlippageBps => Router.setMaxSlippageBps h env maxSlippageBps
  | .setPairMaxSlippageBps tokenIn tokenOut maxSlippageBps =>
    Router.setPairMaxSlippageBps h env tokenIn tokenOut maxSlippageBps
  | .proposeFeeChange proposer feeBps feeCap votingPeriod =>
    Tx.void (Router.proposeFeeChange h env proposer feeBps feeCap votingPeriod)
  | .commitArchiveRoot root leaves description =>
    Tx.void (Router.commitArchiveRoot h env root leaves description)

def TimelockOp.invoke (h : Host) (env : Env) : TimelockOp → Tx State Error Unit
  | .queueAction action => Tx.void (Router.queueAction h env action)
  | .executeAction nonce => Router.executeAction h env nonce
  | .executeBatchActions nonces => Router.executeBatchActions h env nonces
  | .cancelAction nonce => Router.cancelAction h env nonce

def GroupOp.invoke (h : Host) (env : Env) : GroupOp → Tx State Error Unit
  | .setMultisigConfig signers threshold => Router.setMultisigConfig h env signers threshold
  | .approveMultisigConfig signers threshold signer =>
    Tx.void (Router.approveMultisigConfig h env signers threshold signer)
  | .approveUpgrade signer newWasmHash => Router.approveUpgrade h env signer newWasmHash
  | .revokeUpgradeApproval signer newWasmHash =>
    Router.revokeUpgradeApproval h env signer newWasmHash
  | .cancelUpgrade newWasmHash => Router.cancelUpgrade h env newWasmHash
  | .upgrade newWasmHash => Router.upgrade env newWasmHash

def RoutingOp.invoke (h : Host) (env : Env) (cfg : Settings) : RoutingOp → Routing Unit
  | .routePayment payment => Router.routePayment h cfg env payment
  | .routePayments payments => Router.routePayments h cfg env payments
  | .routePaymentMeta payment signerPubkey nonce deadline signature =>
    Router.routePaymentMeta h cfg env payment signerPubkey nonce deadline signature
  | .routePaymentWithQuote sender recipient quote makerPubkey signature =>
    Tx.void (Router.routePaymentWithQuote h cfg env sender recipient quote makerPubkey signature)
  | .routePaymentWithSwapRaw sender recipient dexRouter tokenIn tokenOut amountIn path
      minAmountOut =>
    Router.routePaymentWithSwapRaw h cfg env sender recipient dexRouter tokenIn tokenOut amountIn
      path minAmountOut
  | .routePaymentWithSwap payment => Tx.void (Router.routePaymentWithSwap h cfg env payment)
  | .routePaymentsWithSwap payments => Tx.void (Router.routePaymentsWithSwap h cfg env payments)
  | .routeSplitPaymentWithSwap sender recipient sellToken buyToken amountIn splits =>
    Tx.void (Router.routeSplitPaymentWithSwap h cfg env sender recipient sellToken buyToken
      amountIn splits)
  | .routeMultihopSwap sender recipient dex amountIn path floors =>
    Tx.void (Router.routeMultihopSwap h cfg env sender recipient dex amountIn path floors)
  | .quoteSwap dex sellToken buyToken =>
    Tx.void (Router.quoteSwap h cfg env dex sellToken buyToken)
  | .withdrawRefund user tokenAddress amount =>
    Router.withdrawRefund h env user tokenAddress amount
  | .claimAllRefunds user tokenAddress => Tx.void (Router.claimAllRefunds h env user tokenAddress)
  | .migrateUserRecord user => Tx.void (Router.migrateUserRecord env user)

def TreasuryOp.invoke (h : Host) (env : Env) : TreasuryOp → Tx State Error Unit
  | .recoverTokens tokenAddress amount => Router.recoverTokens h env tokenAddress amount
  | .emergencyWithdraw tokenAddress amount => Router.emergencyWithdraw h env tokenAddress amount
  | .depositToYield tokenAddress amount => Router.depositToYield h env tokenAddress amount
  | .withdrawFromYield tokenAddress amount => Router.withdrawFromYield h env tokenAddress amount
  | .harvestYield => Tx.void (Router.harvestYield h env)
  | .pruneArchivedEntries committedEpoch leaves =>
    Tx.void (Router.pruneArchivedEntries h env committedEpoch leaves)

def Op.invoke (h : Host) (env : Env) : Op → Tx State Error Unit
  | .administer op => op.invoke h env
  | .configure op => op.invoke h env
  | .timelock op => op.invoke h env
  | .group op => op.invoke h env
  | .route op => routing fun cfg => op.invoke h env cfg
  | .treasury op => op.invoke h env
  | .outside call => modifyTraffic fun t => { t with tokens := t.tokens.others h.self [call] }

/-- One transaction: an entry point, with the ledger and the authorisations it runs under. -/
structure Call where
  env : Env
  op : Op

def step (h : Host) (call : Call) : State → State := Tx.commit (call.op.invoke h call.env)

lemma step_cases (h : Host) (call : Call) (s : State) :
    step h call s = s ∨ call.op.invoke h call.env s = .ok ((), step h call s) :=
  (Tx.commit_cases (call.op.invoke h call.env) s).imp id fun ⟨_, hr⟩ => hr

def granted {α : Type} (h : Host) (asked : Op → Option α) (s : State) (call : Call) : List α :=
  if Tx.succeeds (call.op.invoke h call.env) s then (asked call.op).toList else []

lemma granted_cases {α : Type} {h : Host} (asked : Op → Option α) (s : State) (call : Call) :
    granted h asked s call = [] ∧ step h call s = s ∨
      granted h asked s call = (asked call.op).toList ∧
        call.op.invoke h call.env s = .ok ((), step h call s) := by
  cases hr : Tx.succeeds (call.op.invoke h call.env) s with
  | false => exact Or.inl ⟨by simp [granted, hr], Tx.commit_of_fails hr⟩
  | true =>
    obtain ⟨t, ht⟩ := Tx.succeeds_unit.mp hr
    have hstep : step h call s = t := Tx.commit_ok ht
    exact Or.inr ⟨by simp [granted, hr], hstep ▸ ht⟩

def after (h : Host) (tokens : Ledger Address Address) (calls : List Call) : State :=
  Library.Runs.run (step h) (State.fresh tokens) calls

def emptyLedger : Ledger Address Address := ⟨fun _ _ => 0, fun _ _ _ => 0⟩

def signedBy (accounts : List Address) : Env := { auth := fun a => decide (a ∈ accounts) }

end StellarTags.Router
