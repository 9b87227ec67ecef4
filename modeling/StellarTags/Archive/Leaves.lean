import StellarTags.Library.HashTrees
import StellarTags.Platform.Encoding

/-! The leaves of archive epochs and the tree over them, whose pairs are sorted. -/

namespace StellarTags.Archive

open Library.BigEndian Library.HashTrees Platform

inductive RecordType
  | userVolume
  | userSpending
  | refundBalance
  | other (name : String)
  deriving DecidableEq, Repr

structure Value where
  volume : Option ℤ := none
  packed24 : Option Bytes := none
  balance : Option ℤ := none
  deriving DecidableEq, Repr

structure Entry where
  recordType : RecordType
  primaryKey : String
  secondaryKey : Option String := none
  value : Value
  deriving DecidableEq, Repr

section Encoding

/-- The low bytes of the characters. -/
def encodeAddress (address : Option String) : Except String Bytes :=
  match address with
  | none => .error s!"Invalid Stellar address (expected 56 chars): \"undefined\""
  | some address =>
    if (codeUnits address).length = 56 then .ok ((codeUnits address).map (Fin.ofNat 256))
    else .error s!"Invalid Stellar address (expected 56 chars): \"{address}\""

def encodeI128 (value : Option ℤ) : Except String Bytes :=
  match value with
  | none => .error "Cannot convert undefined to a BigInt"
  | some value =>
    let unsigned := ((value.tmod (2 ^ 128) + 2 ^ 128) % 2 ^ 128).toNat
    .ok (toBytes 8 (unsigned / 2 ^ 64) ++ toBytes 8 (unsigned % 2 ^ 64))

def encodeUserVolumeLeaf (address : String) (volume : Option ℤ) : Except String Bytes := do
  let account ← encodeAddress address
  let number ← encodeI128 volume
  pure (1 :: (account ++ number))

def encodeUserSpendingLeaf (address : String) (packed24 : Option Bytes) : Except String Bytes :=
  match packed24 with
  | none => .error "packed24 must be a 24-byte Buffer"
  | some packed24 =>
    if packed24.length = 24 then do
      let account ← encodeAddress address
      pure (2 :: (account ++ packed24))
    else .error "packed24 must be a 24-byte Buffer"

def encodeRefundBalanceLeaf (user : String) (token : Option String) (balance : Option ℤ) :
    Except String Bytes := do
  let userBytes ← encodeAddress user
  let tokenBytes ← encodeAddress token
  let number ← encodeI128 balance
  pure (3 :: (userBytes ++ tokenBytes ++ number))

def Entry.leaf (entry : Entry) : Except String Bytes :=
  match entry.recordType with
  | .userVolume => encodeUserVolumeLeaf entry.primaryKey entry.value.volume
  | .userSpending => encodeUserSpendingLeaf entry.primaryKey entry.value.packed24
  | .refundBalance => encodeRefundBalanceLeaf entry.primaryKey entry.secondaryKey entry.value.balance
  | .other name => .error s!"Unknown record type: {name}"

end Encoding

section Merkle

variable (sha256 : Bytes → Digest)

def sortedPair (left right : Bytes) : Bytes :=
  if left ≤ right then left ++ right else right ++ left

def hashPair (left right : Bytes) : Bytes := (sha256 (sortedPair left right)).bytes

def foldLayers (layer : List Bytes) : Bytes :=
  (top (hashPair sha256) layer).getD zeroDigest.bytes

/-- The root, and the hash of each leaf in hex. -/
def buildMerkleTree (leaves : List Bytes) : Bytes × List String :=
  let layer := leaves.map fun l => (sha256 l).bytes
  (foldLayers sha256 layer, layer.map toHex)

def siblingsFrom : List (List Bytes) → ℕ → List String
  | layer :: upper :: layers, idx =>
    let sibIdx := if idx % 2 = 0 then idx + 1 else idx - 1
    let sibling := layer[sibIdx]?.getD (layer.getD idx [])
    toHex sibling :: siblingsFrom (upper :: layers) (idx / 2)
  | _, _ => []

def buildProofFromHashedLayer (layer : List Bytes) (index : ℕ) : List String :=
  siblingsFrom (layers (hashPair sha256) layer) index

def buildMerkleProof (leaves : List Bytes) (index : ℕ) : List String :=
  buildProofFromHashedLayer sha256 (leaves.map fun l => (sha256 l).bytes) index

def verifyMerkleProof (leafHash : String) (proof : List String) (root : String) : Bool :=
  toHex (proof.foldl (fun current sibHex => hashPair sha256 current (ofHex sibHex))
    (ofHex leafHash)) = root

end Merkle

section Folding

variable {sha256 : Bytes → Digest} {layer rows : List Bytes} {a b c d : Bytes} {i : ℕ}

def foldInputs (sha256 : Bytes → Digest) (layer : List Bytes) : List Bytes :=
  (tree layer).elim [] fun t => (t.joins id (hashPair sha256)).map fun p => sortedPair p.1 p.2

/-- The two orders give one tree, up to the order of the two halves of its nodes. -/
def Rearranged (layer rows : List Bytes) : Prop :=
  ∃ s t, tree layer = some s ∧ tree rows = some t ∧ s.Same t

lemma sortedPair_comm (a b : Bytes) : sortedPair a b = sortedPair b a := by
  unfold sortedPair
  split_ifs with hab hba hba
  · rw [le_antisymm hab hba]
  · rfl
  · rfl
  · exact absurd ((le_total a b).resolve_left hab) hba

lemma hashPair_comm (a b : Bytes) : hashPair sha256 a b = hashPair sha256 b a := by
  rw [hashPair, sortedPair_comm, hashPair]

lemma sortedPair_injective (ha : a.length = 32) (hb : b.length = 32) (hc : c.length = 32)
    (hd : d.length = 32) (h : sortedPair a b = sortedPair c d) :
    (a, b) = (c, d) ∨ (a, b) = (c, d).swap := by
  unfold sortedPair at h
  split_ifs at h with hab hcd hcd
  · obtain ⟨rfl, rfl⟩ := List.append_inj h (ha.trans hc.symm)
    exact .inl rfl
  · obtain ⟨rfl, rfl⟩ := List.append_inj h (ha.trans hd.symm)
    exact .inr rfl
  · obtain ⟨rfl, rfl⟩ := List.append_inj h (hb.trans hc.symm)
    exact .inr rfl
  · obtain ⟨rfl, rfl⟩ := List.append_inj h (hb.trans hd.symm)
    exact .inl rfl

lemma foldLayers_eq_eval {t : HashTree Bytes} (h : tree layer = some t) :
    foldLayers sha256 layer = t.eval id (hashPair sha256) := by
  have htop := top_eq_eval id (hashPair sha256) layer
  rw [List.map_id, h] at htop
  rw [foldLayers, htop]
  rfl

lemma foldInputs_of_tree {t : HashTree Bytes} (h : tree layer = some t) :
    foldInputs sha256 layer = (t.joins id (hashPair sha256)).map fun p => sortedPair p.1 p.2 := by
  rw [foldInputs, h]
  rfl

lemma foldLayers_eq_iff (hlength : layer.length = rows.length) (hne : layer ≠ [])
    (hlayer : ∀ a ∈ layer, a.length = 32) (hrows : ∀ a ∈ rows, a.length = 32)
    (hfree : CollisionFree sha256 (foldInputs sha256 layer ++ foldInputs sha256 rows)) :
    foldLayers sha256 rows = foldLayers sha256 layer ↔ Rearranged layer rows := by
  have hne' : rows ≠ [] := List.ne_nil_of_length_pos (hlength ▸ List.length_pos_of_ne_nil hne)
  obtain ⟨s, hs⟩ := exists_tree hne
  obtain ⟨t, ht⟩ := exists_tree hne'
  have hjoin (a b : Bytes) (_ : a.length = 32) (_ : b.length = 32) :
      (hashPair sha256 a b).length = 32 := Digest.length_bytes _
  have hs32 (a : Bytes) (ha : a ∈ s.leaves) : (id a).length = 32 :=
    hlayer a (mem_of_mem_complete (complete_of_tree hs ▸ ha))
  have ht32 (a : Bytes) (ha : a ∈ t.leaves) : (id a).length = 32 :=
    hrows a (mem_of_mem_complete (complete_of_tree ht ▸ ha))
  rw [foldLayers_eq_eval hs, foldLayers_eq_eval ht]
  constructor
  · intro h
    refine ⟨s, t, hs, ht, ?_⟩
    obtain ⟨d, hsd, htd⟩ := exists_perfect_pair hlength hs ht
    rw [foldInputs_of_tree hs, foldInputs_of_tree ht] at hfree
    refine HashTree.same_of_eval hsd htd Function.injective_id (fun p hp q hq hpq => ?_) h.symm
    obtain ⟨hp1, hp2⟩ := HashTree.joins_induction (P := fun a => a.length = 32) hs32 hjoin hp
    obtain ⟨hq1, hq2⟩ := HashTree.joins_induction (P := fun a => a.length = 32) ht32 hjoin hq
    exact sortedPair_injective hp1 hp2 hq1 hq2
      (hfree _ (List.mem_append_left _ (List.mem_map.mpr ⟨p, hp, rfl⟩)) _
        (List.mem_append_right _ (List.mem_map.mpr ⟨q, hq, rfl⟩)) (Digest.ext hpq))
  · rintro ⟨s', t', hs', ht', hsame⟩
    obtain rfl := Option.some.inj (hs.symm.trans hs')
    obtain rfl := Option.some.inj (ht.symm.trans ht')
    exact (hsame.eval hashPair_comm).symm

lemma siblingsFrom_eq (ha : layer[i]? = some a) :
    siblingsFrom (layers (hashPair sha256) layer) i =
      (pathOf (layers (hashPair sha256) layer) i).map fun step => toHex step.2 := by
  induction layer using layer_induction (hashPair sha256) generalizing i a with
  | nil => simp at ha
  | one b => rfl
  | more layer hlong ih =>
    obtain ⟨b, hb, hnext⟩ := getElem?_nextLayer (hashPair sha256) ha
    have hupper := ih hnext
    obtain ⟨upper, rest, hl⟩ := List.exists_cons_of_ne_nil
      (layers_ne_nil (hashPair sha256) (nextLayer (hashPair sha256) layer))
    rw [layers_of_long hlong]
    rw [hl] at hupper ⊢
    rw [siblingsFrom, pathOf, hb, Option.toList_some, List.map_singleton, List.singleton_append,
      List.map_cons, hupper]
    congr 1
    unfold siblingOf at hb
    obtain heven | hodd := Nat.mod_two_eq_zero_or_one i
    · rw [if_neg (by omega)] at hb
      cases hpair : layer[i + 1]? with
      | none =>
        rw [hpair, Option.none_or] at hb
        simp [heven, hpair, hb]
      | some pair =>
        rw [hpair, Option.some_or] at hb
        obtain rfl := Option.some.inj hb
        simp [heven, hpair]
    · rw [if_pos hodd] at hb
      simp [hodd, hb]

lemma climb_eq_foldl (a : Bytes) (path : List (Side × Bytes)) :
    climb (hashPair sha256) a path =
      (path.map fun step => toHex step.2).foldl
        (fun current sibHex => hashPair sha256 current (ofHex sibHex)) a := by
  induction path generalizing a with
  | nil => rfl
  | cons step path ih =>
    obtain ⟨side, sibling⟩ := step
    rw [climb_cons, ih, List.map_cons, List.foldl_cons, ofHex_toHex]
    cases side with
    | left => rw [Side.join, hashPair_comm]
    | right => rfl

/-- A proof that is rebuilt leads to the root of the layer it is rebuilt from. -/
lemma verifyMerkleProof_iff (sha256 : Bytes → Digest) (ha : layer[i]? = some a) (root : String) :
    verifyMerkleProof sha256 (toHex a) (buildProofFromHashedLayer sha256 layer i) root = true ↔
      toHex (foldLayers sha256 layer) = root := by
  rw [verifyMerkleProof, buildProofFromHashedLayer, siblingsFrom_eq ha, ofHex_toHex,
    ← climb_eq_foldl, foldLayers, top_eq_climb ha, decide_eq_true_iff]
  rfl

end Folding

end StellarTags.Archive
