import StellarTags.Router.Timelock

/-! The setters: each asks for an authority and writes its settings. -/

namespace StellarTags.Router

open Library.Transactions Library.Integers Soroban

/-- Every setter passes its gate, then writes settings and nothing else. -/
def configure (gate : Tx State Error Unit) (write : Settings → Settings) :
    Tx State Error Unit := do
  gate
  modifySettings write

variable (h : Host) (env : Env)

def emergencyFreeze : Tx State Error Unit :=
  configure (asRole h env .superAdmin) fun c => { c with frozen := some true }

def unfreeze : Tx State Error Unit :=
  configure (asRole h env .superAdmin) fun c => { c with frozen := some false }

def setRateLimit (maxCallsPerLedger : ℕ) : Tx State Error Unit :=
  configure (do asAdmin h env; Tx.reject (maxRateLimit < maxCallsPerLedger) .limitExceeded)
    fun c => { c with rateLimitConfig := some maxCallsPerLedger }

def setRateLimitWhitelist (address : Address) : Tx State Error Unit :=
  configure (asAdmin h env) fun c =>
    { c with rateLimitWhitelist := Function.update c.rateLimitWhitelist address true }

def removeRateLimitWhitelist (address : Address) : Tx State Error Unit :=
  configure (asAdmin h env) fun c =>
    { c with rateLimitWhitelist := Function.update c.rateLimitWhitelist address false }

def setPlatformTreasury (newTreasury : Address) : Tx State Error Unit :=
  configure (do requireCircuitClosed; asRole h env .treasuryManager)
    fun c => { c with platformTreasury := some newTreasury }

/-- `set_fee_config` delegates to `set_fee_config_legacy`. -/
def setFeeConfig (feeBps feeCap : ℤ) : Tx State Error Unit :=
  configure (do requireCircuitClosed; requireFeeAuthority h env)
    fun c => { c with feeBps := some feeBps, feeCap := some feeCap }

def setFeeBps (newFeeBps : ℤ) : Tx State Error Unit :=
  configure (do requireCircuitClosed; requireFeeAuthority h env)
    fun c => { c with feeBps := some newFeeBps }

def setGovernance (gov : Address) : Tx State Error Unit :=
  configure (do requireCircuitClosed; asRole h env .superAdmin)
    fun c => { c with governance := some gov }

def configureGovernance (governanceToken : Address) (quorum : ℤ) : Tx State Error Unit :=
  configure (do asRole h env .superAdmin; Tx.reject (quorum ≤ 0) .invalidProposal)
    fun c => { c with governanceToken := some governanceToken, governanceQuorum := some quorum }

def setMinLimit (minLimit : ℤ) : Tx State Error Unit :=
  configure (do requireCircuitClosed; asRole h env .feeManager)
    fun c => { c with minLimit := some minLimit }

/-- `set_paused` delegates to `set_pause`. -/
def setPause (paused : Bool) : Tx State Error Unit :=
  configure (asRole h env .pauser) fun c => c.setPauseLevel (if paused then .fullHalt else .none)

def setPauseLevel (level : PauseLevel) : Tx State Error Unit :=
  configure (asRole h env .pauser) fun c => c.setPauseLevel level

def blacklistAddress (address : Address) : Tx State Error Unit :=
  configure (asRole h env .complianceOfficer)
    fun c => { c with blacklist := Function.update c.blacklist address true }

def unblacklistAddress (address : Address) : Tx State Error Unit :=
  configure (asRole h env .complianceOfficer)
    fun c => { c with blacklist := Function.update c.blacklist address false }

def setYieldProtocol (protocol : Address) : Tx State Error Unit :=
  configure (asRole h env .treasuryManager) fun c => { c with yieldProtocol := some protocol }

def setKycConfig (oracle : Address) (threshold : ℤ) : Tx State Error Unit :=
  configure (do Tx.reject (threshold < 0) .invalidKycThreshold; asRole h env .complianceOfficer)
    fun c => { c with kycOracle := some oracle, kycThreshold := some threshold }

def setPriceOracle (oracle : Address) : Tx State Error Unit :=
  configure (asRole h env .complianceOfficer) fun c => { c with oracleAddress := some oracle }

def setStalenessThreshold (thresholdSecs : ℕ) : Tx State Error Unit :=
  configure (asRole h env .complianceOfficer)
    fun c => { c with stalenessThreshold := some thresholdSecs }

def Settings.setFallback (c : Settings) (baseAsset quoteAsset : Address)
    (price : Option PriceData) : Settings :=
  { c with fallbackPrice := fun b q =>
      if b = baseAsset ∧ q = quoteAsset then price else c.fallbackPrice b q }

/-- A zero price removes the fallback; a static one carries the timestamp `0`. -/
def setFallbackPrice (baseAsset quoteAsset : Address) (fallbackPrice : ℤ) (decimals : ℕ) :
    Tx State Error Unit :=
  configure (asRole h env .complianceOfficer) fun c =>
    c.setFallback baseAsset quoteAsset
      (if fallbackPrice = 0 then none else some ⟨fallbackPrice, decimals, 0⟩)

def registerDex (dex : Address) : Tx State Error Unit :=
  configure (asAdmin h env)
    fun c => { c with registeredDex := Function.update c.registeredDex dex true }

def deregisterDex (dex : Address) : Tx State Error Unit :=
  configure (asAdmin h env)
    fun c => { c with registeredDex := Function.update c.registeredDex dex false }

def setMaxSlippageBps (maxSlippageBps : ℤ) : Tx State Error Unit :=
  configure (do
      asAdmin h env
      Tx.reject (¬ (0 ≤ maxSlippageBps ∧ maxSlippageBps ≤ maxSlippageBpsLimit)) .invalidSwapParams)
    fun c => { c with maxSlippageBps := some maxSlippageBps }

def setPairMaxSlippageBps (tokenIn tokenOut : Address) (maxSlippageBps : ℤ) :
    Tx State Error Unit :=
  configure (do
      asAdmin h env
      Tx.reject (¬ (0 ≤ maxSlippageBps ∧ maxSlippageBps ≤ maxPairSlippageBps))
        .invalidSlippageConfig)
    fun c => c.setPairSlippage tokenIn tokenOut maxSlippageBps

def proposeFeeChange (proposer : Address) (feeBps feeCap : ℤ) (votingPeriod : ℕ) :
    Tx State Error ℕ := do
  requireAuth h env proposer
  let cfg ← Tx.read State.settings
  let governanceToken ← Tx.unwrap cfg.governanceToken .governanceNotConfigured
  let balance ← Tx.read fun s => s.traffic.tokens.balance governanceToken proposer
  Tx.reject (balance ≤ 0) .governanceNotConfigured
  Tx.reject (¬ (0 ≤ feeBps ∧ feeBps ≤ 10000) ∨ feeCap < 0 ∨ votingPeriod = 0) .invalidProposal
  let id := saturateU64 (cfg.governanceNonce.getD 0 + 1)
  let proposal : FeeProposal :=
    { proposer, feeBps, feeCap
      createdAt := env.timestamp
      votingEndsAt := saturateU64 (env.timestamp + votingPeriod)
      yesVotes := 0
      noVotes := 0
      quorum := cfg.governanceQuorum.getD 0
      executed := false }
  modifySettings fun c =>
    { c with
      governanceNonce := some id
      governanceProposal := Function.update c.governanceProposal id (some proposal) }
  pure id

def commitArchiveRoot (root : Hash) (leaves : List ArchiveLeaf) (description : String) :
    Tx State Error ℕ := do
  requireNotFrozen
  asRole h env .treasuryManager
  let currentEpoch ← Tx.read fun s => s.settings.archiveEpoch.getD 0
  let newEpoch ← addU64 currentEpoch 1
  let archive : ArchiveMetadata := ⟨env.timestamp, leaves.length, description⟩
  modifySettings fun c =>
    { c with
      archiveEpoch := some newEpoch
      archiveRoot := Function.update c.archiveRoot newEpoch (some root)
      archiveMeta := Function.update c.archiveMeta newEpoch (some archive) }
  pure newEpoch

end StellarTags.Router
