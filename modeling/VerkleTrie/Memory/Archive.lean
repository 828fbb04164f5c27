import VerkleTrie.Bytes
import Mathlib.Data.List.AList

/-! # Snapshots and the block archive

`vtSnapshot` holds a compressed commitment and a serialized trie. `vtArchive` maps block numbers
to snapshots, and prunes its oldest block when it holds more than `maxSize`.
-/

namespace VerkleTrie.Memory

/-- `vtSnapshot`. -/
structure VtSnapshot where
  commitment : List UInt8
  data : List UInt8
deriving DecidableEq

/-- The check the part accessors of a snapshot share: VT snapshots have the one part 0. -/
def onlyPart {α : Type} (partNumber : Int) (x : α) : Except String α :=
  if partNumber ≠ 0 then .error s!"invalid part number {partNumber}, VT has only 1 part"
  else .ok x

namespace VtSnapshot

/-- `GetMetaData`: the commitment in 32 bytes, then the part count 1 as a big-endian `uint32`. -/
def getMetaData (s : VtSnapshot) : List UInt8 :=
  (Bytes.ofList s.commitment : Bytes 32).toList ++ natToBe 4 1

/-- `GetProofData`. -/
def getProofData (s : VtSnapshot) (partNumber : Int) : Except String (List UInt8) :=
  onlyPart partNumber s.commitment

/-- `GetPartData`. -/
def getPartData (s : VtSnapshot) (partNumber : Int) : Except String (List UInt8) :=
  onlyPart partNumber s.data

@[simp] theorem length_getMetaData (s : VtSnapshot) : s.getMetaData.length = 36 := by
  simp [getMetaData]

@[simp] theorem getPartData_zero (s : VtSnapshot) : s.getPartData 0 = .ok s.data := rfl

end VtSnapshot

/-- `vtArchive`: snapshots by block number, and the bookkeeping `addBlock` keeps for pruning.
Block numbers are `uint64` in Go; the archive only compares them. -/
structure VtArchive where
  snapshots : AList (fun _ : Nat => VtSnapshot)
  maxBlock : Nat
  hasBlocks : Bool
  maxSize : Int
  oldestBlock : Nat

/-- `newVtArchive`. -/
def newVtArchive (maxSize : Int) : VtArchive := ⟨∅, 0, false, maxSize, 0⟩

namespace VtArchive

/-- The loop of `pruneOldest`: the least block of `blocks`, starting from `start`. -/
def leastBlock (blocks : List Nat) (start : Nat) : Nat :=
  blocks.foldl (fun newOldest block => if block < newOldest then block else newOldest) start

/-- `pruneOldest`: deletes `oldestBlock`, then looks for the least block left. -/
def pruneOldest (a : VtArchive) : VtArchive :=
  if a.snapshots.keys.length = 0 then a
  else
    let snapshots := a.snapshots.erase a.oldestBlock
    { a with snapshots, oldestBlock := leastBlock snapshots.keys a.maxBlock }

/-- `addBlock`. An `oldestBlock` of 0 counts as not set yet. -/
def addBlock (a : VtArchive) (block : Nat) (snapshot : VtSnapshot) : VtArchive :=
  let a := { a with snapshots := a.snapshots.insert block snapshot }
  let a := if !a.hasBlocks || a.maxBlock < block then { a with maxBlock := block, hasBlocks := true }
    else a
  let a := if !a.hasBlocks || block < a.oldestBlock || a.oldestBlock == 0 then
      { a with oldestBlock := block }
    else a
  if 0 < a.maxSize ∧ a.maxSize < a.snapshots.keys.length then a.pruneOldest else a

/-- `getBlock`. -/
def getBlock (a : VtArchive) (block : Nat) : Option VtSnapshot := a.snapshots.lookup block

/-- `getBlockHeight`. -/
def getBlockHeight (a : VtArchive) : Nat × Bool := (a.maxBlock, a.hasBlocks)

/-- `addBlock` over a sequence of blocks, first to last. -/
def addBlocks (a : VtArchive) (blocks : List (Nat × VtSnapshot)) : VtArchive :=
  blocks.foldl (fun a b => a.addBlock b.1 b.2) a

@[simp] theorem addBlocks_nil (a : VtArchive) : a.addBlocks [] = a := rfl

@[simp] theorem addBlocks_append_singleton (a : VtArchive) (bs : List (Nat × VtSnapshot))
    (p : Nat × VtSnapshot) : a.addBlocks (bs ++ [p]) = (a.addBlocks bs).addBlock p.1 p.2 := by
  simp [addBlocks]

end VtArchive

end VerkleTrie.Memory
