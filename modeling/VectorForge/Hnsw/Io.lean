import VectorForge.Hnsw.Validator
import VectorForge.Storage.Format

namespace VectorForge.HnswIo
open Format LittleEndian

section Write
variable {σ : Type} [ByteSink σ]

/-- The buffer of `write_list`: count, ids, then empty slots. -/
def listWords (links : List Nat) (capacity : Nat) : List Nat :=
  links.length :: links ++ List.replicate (capacity - links.length) kEmptySlot.toNat

def writeList (out : BinaryWriter σ) (links : List Nat) (capacity : Nat) : BinaryWriter σ :=
  out.array 4 (listWords links capacity)

/-- `hnsw_io::upper_link_words(graph)`. -/
def upperLinkWords (g : HnswGraph) : Nat := (g.levels.map (· * (1 + g.m))).sum

def writeLevels (out : BinaryWriter σ) (g : HnswGraph) : BinaryWriter σ := out.array 1 g.levels

def writeL0Links (out : BinaryWriter σ) (g : HnswGraph) : BinaryWriter σ :=
  (List.range g.nodeCount).foldl (fun out i => writeList out (g.links i 0) (g.capacity 0)) out

/-- The offsets of `UPPER_INDEX` for the levels from here on. -/
def upperOffsets (m : Nat) : Nat → List Nat → List Nat
  | _, [] => []
  | offset, level :: rest =>
    if level = 0 then kNoUpperBlock.toNat :: upperOffsets m offset rest
    else offset :: upperOffsets m (offset + level * (1 + m)) rest

def writeUpperIndex (out : BinaryWriter σ) (g : HnswGraph) : BinaryWriter σ :=
  (upperOffsets g.m 0 g.levels).foldl (fun out offset => out.bytes (leBytes 8 offset)) out

def writeUpperLinks (out : BinaryWriter σ) (g : HnswGraph) : BinaryWriter σ :=
  (List.range g.nodeCount).foldl (fun out i =>
    (List.range (g.level i)).foldl (fun out k => writeList out (g.links i (k + 1)) (g.capacity (k + 1))) out) out

end Write

structure GraphSections where
  levels : List Byte
  l0Links : List Byte
  upperIndex : List Byte
  upperLinks : List Byte

structure GraphShape where
  nodeCount : Nat
  m : Nat
  maxLevelCap : Nat
  entryPoint : Nat
  entryLevel : Nat

def corrupt {α : Type} (part what : String) : Checked α := Outcome.fail (.corruptData (part ++ ": " ++ what))

def getU32 (bytes : List Byte) (word : Nat) : Checked Nat := do
  let o ← Outcome.mul 64 word 4
  let field ← Outcome.slice bytes o 4
  return leValue field

def getU64 (bytes : List Byte) (index : Nat) : Checked Nat := do
  let o ← Outcome.mul 64 index 8
  let field ← Outcome.slice bytes o 8
  return leValue field

/-- `upper_link_words(levels, m)`: nothing if the sum does not fit in 64 bits. -/
def upperLinkWordsOf (m : Nat) : List Byte → Nat → Option Nat
  | [], words => some words
  | b :: rest, words =>
    ((checkedMul 64 b.toNat (m + 1)).bind fun block => checkedAdd 64 words block).bind (upperLinkWordsOf m rest)

/-- Checks every level against the cap; the result is the highest. -/
def scanLevel (s : GraphSections) (cap i top : Nat) : Checked Nat := do
  let byte ← Outcome.index s.levels i
  if byte.toNat > cap then
    corrupt "LEVELS" ("node " ++ toString i ++ " has level " ++ toString byte.toNat ++ " above max_level_cap " ++
      toString cap)
  else return if byte.toNat > top then byte.toNat else top

/-- The list a slot belongs to. -/
structure ListPlace where
  node : Nat
  level : Nat
  bytes : List Byte
  name : String
  first : Nat
  count : Nat
  number : Nat

def ListPlace.whereText (p : ListPlace) : String := "node " ++ toString p.node ++ " level " ++ toString p.level

/-- Slot `j` of a list: the ids read so far and the stamps against duplicates. -/
def decodeSlot (s : GraphSections) (n : Nat) (p : ListPlace) (j : Nat) (read : List Nat × List Nat) :
    Checked (List Nat × List Nat) := do
  let slots ← Outcome.add 64 p.first 1
  let word ← Outcome.add 64 slots j
  let id ← getU32 p.bytes word
  if j ≥ p.count then
    if id ≠ kEmptySlot.toNat then corrupt p.name (p.whereText ++ " has a non-empty unused slot")
    else return read
  else if id ≥ n then corrupt p.name (p.whereText ++ " links to nonexistent node " ++ toString id)
  else if id = p.node then corrupt p.name (p.whereText ++ " links to itself")
  else
    let byte ← Outcome.index s.levels id
    if byte.toNat < p.level then
      corrupt p.name (p.whereText ++ " links to node " ++ toString id ++ " below that level")
    else
      let stamp ← Outcome.index read.2 id
      if stamp = p.number then corrupt p.name (p.whereText ++ " links to node " ++ toString id ++ " twice")
      else return (read.1 ++ [id], read.2.set id p.number)

/-- The variables of the decoder's node loop. -/
structure Decoding where
  graph : HnswGraph
  stamp : List Nat
  listNumber : Nat := 0
  expectedOffset : Nat := 0

def decodeList (s : GraphSections) (shape : GraphShape) (i l : Nat) (d : Decoding) : Checked Decoding := do
  let bytes := if l = 0 then s.l0Links else s.upperLinks
  let name := if l = 0 then "L0_LINKS" else "UPPER_LINKS"
  let capacity := if l = 0 then 2 * shape.m else shape.m
  let first ← (if l = 0 then Outcome.mul 64 i (2 * shape.m + 1)
    else do
      let block ← Outcome.mul 64 (l - 1) (shape.m + 1)
      Outcome.add 64 d.expectedOffset block)
  let count ← getU32 bytes first
  let p : ListPlace := { node := i, level := l, bytes, name, first, count, number := d.listNumber + 1 }
  if count > capacity then
    corrupt name (p.whereText ++ " has " ++ toString count ++ " links (capacity " ++ toString capacity ++ ")")
  else
    let (ids, stamp) ← Outcome.loop (decodeSlot s shape.nodeCount p) capacity 0 ([], d.stamp)
    let graph ← d.graph.setLinks i l ids
    return { d with graph, stamp, listNumber := d.listNumber + 1 }

/-- The only UPPER_INDEX value a node on `level` may have. -/
def canonicalOffset (level upperOffset expectedOffset : Nat) : Bool :=
  if level = 0 then decide (upperOffset = kNoUpperBlock.toNat) else decide (upperOffset = expectedOffset)

def decodeNode (s : GraphSections) (shape : GraphShape) (i : Nat) (d : Decoding) : Checked Decoding := do
  let byte ← Outcome.index s.levels i
  let level := byte.toNat
  let upperOffset ← getU64 s.upperIndex i
  if !canonicalOffset level upperOffset d.expectedOffset then
    corrupt "UPPER_INDEX" ("node " ++ toString i ++ " has a non-canonical offset")
  else
    let graph ← Outcome.lift (d.graph.addNode level)
    let d ← Outcome.loop (decodeList s shape i) (level + 1) 0 { d with graph }
    if level > 0 then
      let block ← Outcome.mul 64 level (shape.m + 1)
      let expectedOffset ← Outcome.add 64 d.expectedOffset block
      return { d with expectedOffset }
    else return d

def decode (s : GraphSections) (shape : GraphShape) : Checked HnswGraph := do
  let n := shape.nodeCount
  if s.levels.length ≠ n then corrupt "LEVELS" "size does not match node_count"
  else if checkedMul3 64 n (2 * shape.m + 1) 4 ≠ some s.l0Links.length then
    corrupt "L0_LINKS" "size does not match node_count and M"
  else if checkedMul 64 n 8 ≠ some s.upperIndex.length then
    corrupt "UPPER_INDEX" "size does not match node_count"
  else
    let top ← Outcome.loop (scanLevel s shape.maxLevelCap) n 0 0
    let entryOk ← (if n = 0 then return decide (shape.entryPoint = kEmptySlot.toNat ∧ shape.entryLevel = 0)
      else if shape.entryPoint ≥ n then return false
      else do
        let byte ← Outcome.index s.levels shape.entryPoint
        return decide (byte.toNat = shape.entryLevel ∧ shape.entryLevel = top))
    if !entryOk then
      corrupt "METADATA" (if n = 0 then "empty graph must have no entry point"
        else "entry point is not a node of the top level")
    else if (upperLinkWordsOf shape.m s.levels 0).bind (checkedMul 64 · 4) ≠ some s.upperLinks.length then
      corrupt "UPPER_LINKS" "size does not match LEVELS and M"
    else match HnswGraph.create { m := shape.m, maxLevel := shape.maxLevelCap } with
      | .error st => corrupt "METADATA" st.message
      | .ok graph =>
        let d ← Outcome.loop (decodeNode s shape) n 0 { graph, stamp := List.replicate n 0 }
        if n > 0 then return d.graph.setEntry { id := shape.entryPoint, level := shape.entryLevel }
        else return d.graph

end VectorForge.HnswIo
