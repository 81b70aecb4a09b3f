import Bchat.Lib.Bytes

/-!
# Master nodes

`master_node` of `src/network/master_node.cpp`, its order and the binary format of refresh
responses. An IPv4 address is its 32-bit number.
-/

namespace Bchat.Network

abbrev Pubkey := {b : Bytes // b.length = 32}

/-- A key written as a number. -/
def pubkeyOfNat (n : Nat) : Pubkey := ⟨natBytes 32 n, length_natBytes_32 n⟩

abbrev SwarmId := UInt64

/-- A node of the network. -/
structure MasterNode where
  remotePubkey : Pubkey
  ip : UInt32
  httpsPort : UInt16
  omqPort : UInt16
  storageServerVersion : UInt16 × UInt16 × UInt16
  swarmId : SwarmId
  requestedUnlockHeight : UInt64
  deriving Repr

namespace MasterNode

/-- The fields in the order in which the defaulted `operator<=>` compares them. -/
def toKey (n : MasterNode) : Bytes ×ₗ ℕ ×ₗ ℕ ×ₗ ℕ ×ₗ ℕ ×ₗ ℕ ×ₗ ℕ ×ₗ ℕ ×ₗ ℕ :=
  toLex (n.remotePubkey.val, toLex (n.ip.toNat, toLex (n.httpsPort.toNat, toLex (n.omqPort.toNat,
    toLex (n.storageServerVersion.1.toNat, toLex (n.storageServerVersion.2.1.toNat,
      toLex (n.storageServerVersion.2.2.toNat, toLex (n.swarmId.toNat,
        n.requestedUnlockHeight.toNat))))))))

lemma toKey_injective : Function.Injective toKey := by
  intro a b h
  obtain ⟨⟨kb, hkb⟩, ib, hb, ob, ⟨vb, vb', vb''⟩, sb, rb⟩ := b
  simp only [toKey, EmbeddingLike.apply_eq_iff_eq, Prod.mk.injEq, UInt32.toNat_inj,
      UInt16.toNat_inj,
    UInt64.toNat_inj] at h
  obtain ⟨rfl, rfl, rfl, rfl, rfl, rfl, rfl, rfl, rfl⟩ := h
  rfl

instance : LinearOrder MasterNode := LinearOrder.lift' toKey toKey_injective

end MasterNode

/-! ## Refresh responses -/

/-- The number that bytes stand for, the most significant one first. -/
def beNat (b : Bytes) : Nat := b.foldl (fun n x => 256 * n + x.toNat) 0

def mnodeSize : Nat := 51

/-- One record: 32 bytes of key, 8 of swarm id, 4 of address, twice 2 of port and 3 of version.
Nodes without an address or a port are not in a valid state yet. -/
def parseMnode (record : Bytes) : Option MasterNode :=
  if h : (record.take 32).length = 32 then
    let ip := beNat ((record.drop 40).take 4)
    let quicPort := beNat ((record.drop 46).take 2)
    let version := fun i => UInt16.ofNat (beNat ((record.drop (48 + i)).take 1))
    if ip = 0 ∨ quicPort = 0 then none
    else some
      { remotePubkey := ⟨record.take 32, h⟩
        ip := UInt32.ofNat ip
        httpsPort := UInt16.ofNat (beNat ((record.drop 44).take 2))
        omqPort := UInt16.ofNat quicPort
        storageServerVersion := (version 0, version 1, version 2)
        swarmId := UInt64.ofNat (beNat ((record.drop 32).take 8))
        requestedUnlockHeight := 0 }
  else none

/-- The loop over the records: the nodes, and how many records failed. -/
def parseMnodes : Nat → Bytes → List MasterNode × Nat
  | 0, _ => ([], 0)
  | n + 1, bin =>
    let r := parseMnodes n (bin.drop mnodeSize)
    match parseMnode (bin.take mnodeSize) with
    | some node => (node :: r.1, r.2)
    | none => (r.1, r.2 + 1)

/-- `process_mnode_cache_bin`. -/
def processMnodeCacheBin (cacheBin : Bytes) : Except String (List MasterNode × Nat) :=
  if cacheBin.length % mnodeSize ≠ 0 then
    .error "Mnode cache size is not a multiple of mnode size (51)."
  else .ok (parseMnodes (cacheBin.length / mnodeSize) cacheBin)

end Bchat.Network
