import Mathlib.Data.Int.Log
import Mathlib.Data.Rat.Floor
import DevGraph.Lib.Json

/-!
# The selection network

The network that the plan selection page compiles from its work nodes and their prerequisites: one
benefit or cost arc per weighted node and one arc of capacity `M = C + 1` per dependency. Keys are
JavaScript strings, that is lists of UTF-16 code units.
-/

namespace DevGraph.Selection

open Lib (maxSafeInteger)

/-- A JavaScript string as its UTF-16 code units, ordered lexicographically. -/
abbrev JsString := List UInt16

def isSafeInteger (v : Int) : Bool := decide (-maxSafeInteger ≤ v ∧ v ≤ maxSafeInteger)

/-- The error codes that `requireThat` and `finite` throw here. -/
inductive SelectionError
  | networkSize | quantization | nodeKey | duplicateNode | invalidNumber | overflow
  | missingDependency | solverCertificate | outOfFuel
deriving DecidableEq, Repr

def requireThat (condition : Bool) (code : SelectionError) : Except SelectionError Unit :=
  if condition then .ok () else .error code

def ascii (s : List Char) : JsString := s.map fun c => c.toNat.toUInt16

def sourceKey : JsString := ascii ['$', 's', 'o', 'u', 'r', 'c', 'e']

def sinkKey : JsString := ascii ['$', 's', 'i', 'n', 'k']

/-- A work node. `none` as utility stands for NaN and the infinities. -/
structure Node where
  key : JsString
  utility : Option ℚ

structure Dependency where
  dependent : JsString
  prerequisite : JsString

inductive ArcType
  | benefit | cost | prerequisite
deriving DecidableEq, Repr

/-- A network arc. Its `id` is the tuple that the page turns into JSON text. -/
structure Arc where
  id : JsString × JsString × ArcType × Nat
  source : JsString
  target : JsString
  capacity : Int
  type : ArcType
deriving DecidableEq

structure WeightedNode where
  key : JsString
  weight : Int
deriving DecidableEq

structure Network where
  C : Int
  M : Int
  scale : Nat
  weights : List WeightedNode
  edges : List Arc

/-- `Math.round`: the nearest integer, ties toward positive infinity. -/
def mathRound (x : ℚ) : Int := ⌊x + 1 / 2⌋

/-- The nearest integer, ties to the even one. -/
def roundEven (x : ℚ) : Int :=
  let below := ⌊x⌋
  if x - below < 1 / 2 ∨ x - below = 1 / 2 ∧ below % 2 = 0 then below else below + 1

/-- The double next to a quotient of safe integers, which is never subnormal or infinite. -/
def nearestDouble (q : ℚ) : ℚ :=
  let unit : ℚ := 2 ^ (Int.log 2 |q| - 52)
  roundEven (q / unit) * unit

section Compile

-- The product of two doubles, `none` when it is not finite.
variable (mul : ℚ → Nat → Option ℚ)

/-- The rounded weight of one node. -/
def quantize (scale : Nat) (n : Node) : Except SelectionError Int :=
  match n.utility with
  | none => .error .invalidNumber
  | some u =>
    match mul u scale with
    | none => .error .overflow
    | some p => if isSafeInteger (mathRound p) then .ok (mathRound p) else .error .overflow

def addArc (edges : List Arc) (source target : JsString) (capacity : Int) (type : ArcType) :
    List Arc :=
  if source ≠ target then
    edges ++ [⟨(source, target, type, edges.length), source, target, capacity, type⟩]
  else edges

/-- The benefit or cost arc of one weighted node. -/
def addWeight (edges : List Arc) (n : WeightedNode) : List Arc :=
  let edges := if 0 < n.weight then addArc edges sourceKey n.key n.weight .benefit else edges
  if n.weight < 0 then addArc edges n.key sinkKey (-n.weight) .cost else edges

/-- One pass of the loop over the sorted dependencies. -/
def addDependency (keys : List JsString) (M : Int) (edges : List Arc) (d : Dependency) :
    Except SelectionError (List Arc) := do
  requireThat (keys.contains d.dependent && keys.contains d.prerequisite) .missingDependency
  return addArc edges d.dependent d.prerequisite M .prerequisite

def dependencyKey (d : Dependency) : JsString := d.dependent ++ 0 :: d.prerequisite

def sortNodes (nodes : List Node) : List Node := nodes.insertionSort fun a b => a.key ≤ b.key

def sortDependencies (dependencies : List Dependency) : List Dependency :=
  dependencies.insertionSort fun a b => dependencyKey a ≤ dependencyKey b

def compileNetwork (nodes : List Node) (dependencies : List Dependency) (scale : Int) :
    Except SelectionError Network := do
  requireThat (decide (nodes.length ≤ 3000 ∧ dependencies.length ≤ 30000)) .networkSize
  requireThat (isSafeInteger scale && decide (0 < scale ∧ scale ≤ 1000000)) .quantization
  let ordered := sortNodes nodes
  let keys := ordered.map Node.key
  requireThat (keys.all fun k => k ≠ sourceKey && k ≠ sinkKey) .nodeKey
  requireThat (keys.dedup.length == nodes.length) .duplicateNode
  let weights ← ordered.mapM (quantize mul scale.toNat)
  -- Keep the sum of all absolute capacities plus `M` safely representable.
  let absolute := weights.foldl (fun s v => s + |v|) 0
  requireThat (isSafeInteger absolute && decide (4 * absolute < maxSafeInteger)) .overflow
  let C := weights.foldl (fun s w => s + max w 0) 0
  let M := C + 1
  let weighted := List.zipWith WeightedNode.mk keys weights
  let edges := weighted.foldl addWeight []
  let edges ← (sortDependencies dependencies).foldlM (addDependency keys M) edges
  return ⟨C, M, scale.toNat, weighted, edges⟩

end Compile

end DevGraph.Selection
