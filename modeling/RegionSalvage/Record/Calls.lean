import RegionSalvage.Record.Assembly

/-! # Chains from call to call

A caller makes chains of sectors, lets them grow and assembles records from them, any number of
chains at a time and in any order.  Chains are numbered in the order in which they were made.  A
call that fails changes no chain, and a device may refuse any read (`BlockSource.refusing`), also one
that it has answered before.
-/

namespace RegionSalvage

/-- What a caller does with chains. -/
inductive ChainCall where
  | ofRun (index count : Int)
  | ofBlocks (indices : List Int)
  | appendRun (chain : Nat) (index count : Int)
  | appendBlocks (chain : Nat) (indices : List Int)
  | assemble (chain : Nat) (extra : Option (List Int))
deriving DecidableEq, Repr

/-- Why a call fails. -/
inductive ChainFailure where
  | read (e : ReadError)
  | assembly (e : AssemblyFailure)
deriving DecidableEq, Repr

/-- A call, and the reads that the device refuses while it lasts. -/
structure ChainStep where
  call : ChainCall
  refusal : (index count : Int) → Option ReadError := fun _ _ => none

namespace SectorChain

/-- Makes a chain and puts it behind those already there. -/
def enlist (chains : List SectorChain) (made : Except ReadError SectorChain) :
    Except ChainFailure (List SectorChain) :=
  match made with
  | .error e => .error (.read e)
  | .ok chain => .ok (chains ++ [chain])

/-- Does something with one chain; where there is none, nothing. -/
def withChain (chains : List SectorChain) (i : Nat)
    (act : SectorChain → Except ChainFailure SectorChain) :
    Except ChainFailure (List SectorChain) :=
  match chains[i]? with
  | none => .ok chains
  | some chain =>
    match act chain with
    | .error e => .error e
    | .ok grown => .ok (chains.set i grown)

/-- The chains after a call on a source, or why the call fails. -/
def perform (source : BlockSource) (chains : List SectorChain) :
    ChainCall → Except ChainFailure (List SectorChain)
  | .ofRun index count => enlist chains (ofRun source index count)
  | .ofBlocks indices => enlist chains (ofBlocks source indices)
  | .appendRun i index count => withChain chains i fun chain =>
    (chain.appendRun source index count).mapError .read
  | .appendBlocks i indices => withChain chains i fun chain =>
    (chain.appendBlocks source indices).mapError .read
  | .assemble i extra => withChain chains i fun chain =>
    ((chain.assemble source extra).map Prod.snd).mapError .assembly

/-- The chains after a step: a call that fails leaves them as they were. -/
def step (source : BlockSource) (chains : List SectorChain) (s : ChainStep) : List SectorChain :=
  match perform (source.refusing s.refusal) chains s.call with
  | .error _ => chains
  | .ok chains => chains

/-- The chains after a number of steps, one after the other. -/
def performAll (source : BlockSource) (steps : List ChainStep) : List SectorChain :=
  steps.foldl (step source) []

end SectorChain

end RegionSalvage
