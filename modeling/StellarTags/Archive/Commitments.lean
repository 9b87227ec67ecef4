import StellarTags.Archive.Leaves
import StellarTags.Library.Integers

/-! What the root of an archive commits to: its records can be told from their leaves, each has a
proof, and nothing else has. -/

namespace StellarTags.Archive

open Library.BigEndian Library.HashTrees Library.Integers Platform

structure AsciiAddress where
  text : String
  length_text : text.toList.length = 56
  ascii : ∀ c ∈ text.toList, c.toNat < 128

/-- The records that are archived, with the values the contract keeps for them. -/
inductive Record
  | userVolume (address : AsciiAddress) (volume : I128)
  | userSpending (address : AsciiAddress) (packed24 : {b : Bytes // b.length = 24})
  | refundBalance (user token : AsciiAddress) (balance : I128)

def Record.entry : Record → Entry
  | .userVolume address volume =>
    { recordType := .userVolume, primaryKey := address.text, value := { volume := some volume.val } }
  | .userSpending address packed24 =>
    { recordType := .userSpending, primaryKey := address.text
      value := { packed24 := some packed24.val } }
  | .refundBalance user token balance =>
    { recordType := .refundBalance, primaryKey := user.text, secondaryKey := some token.text
      value := { balance := some balance.val } }

namespace AsciiAddress

variable {a b : AsciiAddress}

def bytes (a : AsciiAddress) : Bytes := a.text.toList.map fun c => Fin.ofNat 256 c.toNat

@[simp] lemma length_bytes (a : AsciiAddress) : a.bytes.length = 56 := by
  rw [bytes, List.length_map, a.length_text]

lemma codeUnits_eq (a : AsciiAddress) : codeUnits a.text = a.text.toList.map Char.toNat := by
  rw [codeUnits, ← List.flatMap_pure_eq_map]
  apply List.flatMap_congr
  intro c hc
  have hlt := a.ascii c hc
  rw [if_pos (by omega)]
  rfl

lemma encodeAddress_eq (a : AsciiAddress) : encodeAddress (some a.text) = .ok a.bytes := by
  have hlength : (codeUnits a.text).length = 56 := by
    rw [a.codeUnits_eq, List.length_map, a.length_text]
  rw [encodeAddress, if_pos hlength, a.codeUnits_eq, List.map_map]
  rfl

lemma text_eq (a : AsciiAddress) :
    a.text = .ofList (a.bytes.map fun byte => Char.ofNat byte.val) := by
  have hread : (a.bytes.map fun byte => Char.ofNat byte.val) = a.text.toList := by
    rw [bytes, List.map_map]
    conv_rhs => rw [← List.map_id a.text.toList]
    apply List.map_congr_left
    intro c hc
    have hlt := a.ascii c hc
    have hval : ((Fin.ofNat 256 c.toNat : Fin 256) : ℕ) = c.toNat := by
      rw [Fin.val_ofNat, Nat.mod_eq_of_lt (by omega)]
    rw [Function.comp_apply, hval, Char.ofNat_toNat, id]
  rw [hread, String.ofList_toList]

lemma bytes_injective (h : a.bytes = b.bytes) : a = b := by
  have htext : a.text = b.text := by rw [a.text_eq, b.text_eq, h]
  cases a
  cases b
  obtain rfl : _ = _ := htext
  rfl

end AsciiAddress

section Leaves

variable {n m : ℤ} {r r' : Record}

lemma i128_width (n : I128) : -(256 ^ 16 : ℤ) ≤ 2 * n.val ∧ 2 * n.val < 256 ^ 16 := by
  have h := n.property
  simp only [FitsI128, minI128, maxI128] at h
  omega

/-- The remainder, made positive, is the two's complement. -/
lemma encodeI128_eq (n : I128) : encodeI128 (some n.val) = .ok (toBytesSigned 16 n.val) := by
  have hwidth : (256 : ℤ) ^ 16 = 2 ^ 128 := by norm_num
  have hunsigned : (n.val.tmod (2 ^ 128) + 2 ^ 128) % 2 ^ 128 = n.val % 256 ^ 16 := by
    rw [hwidth, Int.add_emod_right, Int.tmod_def, Int.sub_mul_emod_self_left]
  have hsplit := toBytes_add 8 8 (n.val % 256 ^ 16).toNat
  have hhalf : (256 : ℕ) ^ 8 = 2 ^ 64 := by norm_num
  rw [hhalf] at hsplit
  rw [encodeI128, toBytesSigned, hunsigned, hsplit]

/-- The bytes of a record's leaf. -/
def Record.leaf : Record → Bytes
  | .userVolume address volume => 1 :: (address.bytes ++ toBytesSigned 16 volume.val)
  | .userSpending address packed24 => 2 :: (address.bytes ++ packed24.val)
  | .refundBalance user token balance =>
    3 :: (user.bytes ++ token.bytes ++ toBytesSigned 16 balance.val)

lemma leaf_entry (r : Record) : r.entry.leaf = .ok r.leaf := by
  cases r with
  | userVolume address volume =>
    simp only [Record.entry, Entry.leaf, encodeUserVolumeLeaf, address.encodeAddress_eq,
      encodeI128_eq]
    rfl
  | userSpending address packed24 =>
    simp only [Record.entry, Entry.leaf, encodeUserSpendingLeaf, packed24.property, if_true,
      address.encodeAddress_eq]
    rfl
  | refundBalance user token balance =>
    simp only [Record.entry, Entry.leaf, encodeRefundBalanceLeaf, user.encodeAddress_eq,
      token.encodeAddress_eq, encodeI128_eq]
    rfl

lemma mapM_leaf (records : List Record) :
    (records.map Record.entry).mapM Entry.leaf = .ok (records.map Record.leaf) := by
  induction records with
  | nil => rfl
  | cons r records ih =>
    rw [List.map_cons, List.mapM_cons, leaf_entry, ih]
    rfl

lemma leaf_injective (h : r.leaf = r'.leaf) : r = r' := by
  cases r with
  | userVolume a n =>
    cases r' with
    | userVolume b m =>
      obtain ⟨ha, hn⟩ := List.append_inj (List.cons.inj h).2 (by simp)
      rw [AsciiAddress.bytes_injective ha,
        Subtype.ext (toBytesSigned_injective (i128_width n) (i128_width m) hn)]
    | userSpending b q => exact absurd (List.cons.inj h).1 (by decide)
    | refundBalance b c m => exact absurd (List.cons.inj h).1 (by decide)
  | userSpending a p =>
    cases r' with
    | userVolume b m => exact absurd (List.cons.inj h).1 (by decide)
    | userSpending b q =>
      obtain ⟨ha, hp⟩ := List.append_inj (List.cons.inj h).2 (by simp)
      rw [AsciiAddress.bytes_injective ha, Subtype.ext hp]
    | refundBalance b c m => exact absurd (List.cons.inj h).1 (by decide)
  | refundBalance a b n =>
    cases r' with
    | userVolume c m => exact absurd (List.cons.inj h).1 (by decide)
    | userSpending c q => exact absurd (List.cons.inj h).1 (by decide)
    | refundBalance c d m =>
      obtain ⟨hkeys, hn⟩ := List.append_inj (List.cons.inj h).2 (by simp)
      obtain ⟨ha, hb⟩ := List.append_inj hkeys (by simp)
      rw [AsciiAddress.bytes_injective ha, AsciiAddress.bytes_injective hb,
        Subtype.ext (toBytesSigned_injective (i128_width n) (i128_width m) hn)]

/-- No leaf is as long as two digests. -/
lemma length_leaf_ne (r : Record) : r.leaf.length ≠ 64 := by
  cases r with
  | userVolume address volume => simp [Record.leaf]
  | userSpending address packed24 => simp [Record.leaf, packed24.property]
  | refundBalance user token balance => simp [Record.leaf]

end Leaves

section Inputs

variable (sha256 : Bytes → Digest)

/-- What is hashed for a proof to be followed from `current` on. -/
def proofInputs : Bytes → List String → List Bytes
  | _, [] => []
  | current, sibHex :: proof =>
    sortedPair current (ofHex sibHex) :: proofInputs (hashPair sha256 current (ofHex sibHex)) proof

def leafDigest (leaf : Bytes) : Bytes := (sha256 leaf).bytes

def treeInputs (leaves : List Bytes) : List Bytes :=
  leaves ++ (tree leaves).elim [] fun t =>
    (t.joins (leafDigest sha256) (hashPair sha256)).map fun p => sortedPair p.1 p.2

def verifyInputs (leaf : Bytes) (proof : List String) : List Bytes :=
  leaf :: proofInputs sha256 (leafDigest sha256 leaf) proof

end Inputs

section Soundness

variable {sha256 : Bytes → Digest} {leaves : List Bytes} {leaf a b : Bytes} {proof : List String}

@[simp] lemma length_hashPair (a b : Bytes) : (hashPair sha256 a b).length = 32 :=
  Digest.length_bytes _

lemma length_sortedPair (ha : a.length = 32) (hb : b.length = 32) :
    (sortedPair a b).length = 64 := by
  unfold sortedPair
  split
  · rw [List.length_append, ha, hb]
  · rw [List.length_append, ha, hb]

/-- The siblings are joined on the right: their order makes no difference. -/
def pathOfProof (proof : List String) : List (Side × Bytes) :=
  proof.map fun sibHex => (.right, ofHex sibHex)

lemma foldl_eq_climb (a : Bytes) (proof : List String) :
    proof.foldl (fun current sibHex => hashPair sha256 current (ofHex sibHex)) a =
      climb (hashPair sha256) a (pathOfProof proof) := by
  induction proof generalizing a with
  | nil => rfl
  | cons sibHex proof ih => exact ih _

/-- What is joined along a proof is hashed, and is two digests. -/
lemma mem_joinsOf_proof (ha : a.length = 32) (hproof : ∀ sibHex ∈ proof, (ofHex sibHex).length = 32)
    {p : Bytes × Bytes} (hp : p ∈ joinsOf (hashPair sha256) a (pathOfProof proof)) :
    sortedPair p.1 p.2 ∈ proofInputs sha256 a proof ∧ p.1.length = 32 ∧ p.2.length = 32 := by
  induction proof generalizing a with
  | nil => cases hp
  | cons sibHex proof ih =>
    obtain rfl | hp := List.mem_cons.mp hp
    · exact ⟨List.mem_cons_self, ha, hproof sibHex List.mem_cons_self⟩
    · obtain ⟨hmem, hlengths⟩ := ih (length_hashPair _ _)
        (fun s hs => hproof s (List.mem_cons_of_mem _ hs)) hp
      exact ⟨List.mem_cons_of_mem _ hmem, hlengths⟩

lemma root_eq_eval {t : HashTree Bytes} (ht : tree leaves = some t) :
    (buildMerkleTree sha256 leaves).1 = t.eval (leafDigest sha256) (hashPair sha256) := by
  have htop := top_eq_eval (leafDigest sha256) (hashPair sha256) leaves
  rw [ht] at htop
  have hroot : (buildMerkleTree sha256 leaves).1 =
      (top (hashPair sha256) (leaves.map (leafDigest sha256))).getD zeroDigest.bytes := rfl
  rw [hroot, htop]
  rfl

/-- A proof that leads to the root started at a leaf, where every leaf differs in length from two
digests. -/
lemma mem_of_verifyMerkleProof (hne : leaves ≠ []) (hlengths : ∀ l ∈ leaves, l.length ≠ 64)
    (hleaf : leaf.length ≠ 64) (hproof : ∀ sibHex ∈ proof, (ofHex sibHex).length = 32)
    (hfree : CollisionFree sha256 (treeInputs sha256 leaves ++ verifyInputs sha256 leaf proof))
    (h : verifyMerkleProof sha256 (toHex (leafDigest sha256 leaf)) proof
      (toHex (buildMerkleTree sha256 leaves).1) = true) : leaf ∈ leaves := by
  obtain ⟨t, ht⟩ := exists_tree hne
  have hmem {l : Bytes} (hl : l ∈ t.leaves) : l ∈ leaves :=
    mem_of_mem_complete (complete_of_tree ht ▸ hl)
  have hclimb : climb (hashPair sha256) (leafDigest sha256 leaf) (pathOfProof proof) =
      t.eval (leafDigest sha256) (hashPair sha256) := by
    rw [← root_eq_eval ht, ← foldl_eq_climb]
    rw [verifyMerkleProof, ofHex_toHex, decide_eq_true_eq] at h
    exact toHex_injective h
  have hstart : leaf ∈ verifyInputs sha256 leaf proof := List.mem_cons_self
  have htree {l : Bytes} (hl : l ∈ t.leaves) : l ∈ treeInputs sha256 leaves :=
    List.mem_append_left _ (hmem hl)
  have hjoined {q : Bytes × Bytes} (hq : q ∈ t.joins (leafDigest sha256) (hashPair sha256)) :
      sortedPair q.1 q.2 ∈ treeInputs sha256 leaves ∧ q.1.length = 32 ∧ q.2.length = 32 := by
    refine ⟨List.mem_append_right _ ?_, HashTree.joins_induction (P := fun b => b.length = 32)
      (fun l _ => Digest.length_bytes _) (fun _ _ _ _ => length_hashPair _ _) hq⟩
    rw [ht]
    exact List.mem_map.mpr ⟨q, hq, rfl⟩
  have hpath {p : Bytes × Bytes}
      (hp : p ∈ joinsOf (hashPair sha256) (leafDigest sha256 leaf) (pathOfProof proof)) :
      sortedPair p.1 p.2 ∈ verifyInputs sha256 leaf proof ∧ p.1.length = 32 ∧ p.2.length = 32 := by
    obtain ⟨hin, hlengths⟩ := mem_joinsOf_proof (Digest.length_bytes _) hproof hp
    exact ⟨List.mem_cons_of_mem _ hin, hlengths⟩
  have hsame {x y : Bytes} (hx : x ∈ verifyInputs sha256 leaf proof)
      (hy : y ∈ treeInputs sha256 leaves) (hxy : (sha256 x).bytes = (sha256 y).bytes) : x = y :=
    hfree x (List.mem_append_right _ hx) y (List.mem_append_left _ hy) (Digest.ext hxy)
  obtain ⟨l, hl, heq⟩ := mem_leaves_of_climb
    (fun p hp q hq hpq => by
      obtain ⟨hp, hp1, hp2⟩ := hpath hp
      obtain ⟨hq, hq1, hq2⟩ := hjoined hq
      exact sortedPair_injective hp1 hp2 hq1 hq2 (hsame hp hq hpq))
    (fun q hq hlq => by
      obtain ⟨hq, hq1, hq2⟩ := hjoined hq
      have hbytes := hsame hstart hq hlq
      exact hleaf (hbytes ▸ length_sortedPair hq1 hq2))
    (fun p hp l hl hpl => by
      obtain ⟨hp, hp1, hp2⟩ := hpath hp
      have hbytes := hsame hp (htree hl) hpl
      exact hlengths l (hmem hl) (hbytes ▸ length_sortedPair hp1 hp2)) hclimb
  exact hsame hstart (htree hl) heq ▸ hmem hl

end Soundness

/-- A record can be read off its leaf. Every record of an archive has a proof against the root; and
whatever siblings of 32 bytes verify a record, it is one of the archive's, although leaves and
nodes are hashed alike. -/
theorem archive_commits (sha256 : Bytes → Digest) :
    (∀ r r' : Record, r.entry.leaf = r'.entry.leaf → r = r') ∧
      (∀ value : I128, encodeI128 (some value.val) = .ok (toBytesSigned 16 value.val)) ∧
      ∀ (records : List Record) (leaves : List Bytes), records ≠ [] →
        (records.map Record.entry).mapM Entry.leaf = .ok leaves →
        (∀ (i : ℕ) (leaf : Bytes), leaves[i]? = some leaf →
          verifyMerkleProof sha256 (toHex (sha256 leaf).bytes) (buildMerkleProof sha256 leaves i)
            (toHex (buildMerkleTree sha256 leaves).1) = true) ∧
        ∀ (r : Record) (leaf : Bytes) (proof : List String), r.entry.leaf = .ok leaf →
          (∀ sibHex ∈ proof, (ofHex sibHex).length = 32) →
          CollisionFree sha256 (treeInputs sha256 leaves ++ verifyInputs sha256 leaf proof) →
          verifyMerkleProof sha256 (toHex (sha256 leaf).bytes) proof
            (toHex (buildMerkleTree sha256 leaves).1) = true →
          r ∈ records := by
  refine ⟨fun r r' h => ?_, encodeI128_eq, fun records leaves hne hleaves => ?_⟩
  · rw [leaf_entry, leaf_entry] at h
    exact leaf_injective (Except.ok.inj h)
  · obtain rfl : leaves = records.map Record.leaf := by
      exact Except.ok.inj (hleaves.symm.trans (mapM_leaf records))
    refine ⟨fun i leaf hi => ?_, fun r leaf proof hleaf hproof hfree hverify => ?_⟩
    · have hdigest : ((records.map Record.leaf).map fun l => (sha256 l).bytes)[i]? =
          some (sha256 leaf).bytes := by
        rw [List.getElem?_map, hi]
        rfl
      exact (verifyMerkleProof_iff sha256 hdigest _).mpr rfl
    · rw [leaf_entry] at hleaf
      obtain rfl := Except.ok.inj hleaf
      have hlengths (l : Bytes) (hl : l ∈ records.map Record.leaf) : l.length ≠ 64 := by
        obtain ⟨r, -, rfl⟩ := List.mem_map.mp hl
        exact length_leaf_ne r
      have hmem := mem_of_verifyMerkleProof (by simpa using hne) hlengths (length_leaf_ne r) hproof
        hfree hverify
      obtain ⟨r', hr', heq⟩ := List.mem_map.mp hmem
      exact leaf_injective heq ▸ hr'

section Examples

def sampleAddress (letter : Char) (h : letter.toNat < 128 := by decide) : AsciiAddress where
  text := .ofList (List.replicate 56 letter)
  length_text := by simp
  ascii c hc := by
    rw [String.toList_ofList] at hc
    rwa [List.eq_of_mem_replicate hc]

def sampleRecords : List Record :=
  [.userVolume (sampleAddress 'A') ⟨-1, by decide⟩,
    .userSpending (sampleAddress 'A') ⟨List.replicate 24 7, rfl⟩,
    .refundBalance (sampleAddress 'A') (sampleAddress 'B') ⟨40, fitsI128_forty⟩]

/-- The proof of the last of three records, which stands for a fourth. -/
theorem archive_commits_three :
    let leaves := sampleRecords.map Record.leaf
    ∃ r ∈ sampleRecords, ∃ leaf, r.entry.leaf = .ok leaf ∧
      verifyMerkleProof sampleSha256 (toHex (sampleSha256 leaf).bytes)
        (buildMerkleProof sampleSha256 leaves 2) (toHex (buildMerkleTree sampleSha256 leaves).1) =
          true := by
  intro leaves
  obtain ⟨hcomplete, hsound⟩ := (archive_commits sampleSha256).2.2 sampleRecords leaves (by decide)
    (mapM_leaf sampleRecords)
  have hverify := hcomplete 2 _ rfl
  refine ⟨_, hsound (.refundBalance (sampleAddress 'A') (sampleAddress 'B') ⟨40, fitsI128_forty⟩) _
    _ (leaf_entry _) ?_ ?_ hverify, _, leaf_entry _, hverify⟩
  · decide +kernel
  · decide +kernel

end Examples

end StellarTags.Archive
