import SolutionSurvey.Grammar.Automaton
import SolutionSurvey.Reading.Tree

/-!
# The branching stack

Several readings of a text are kept at once.  Each is a branch that ends at a vertex; from a vertex
links lead down to earlier vertices, each over the tree that was read between them.  Branches that
agree are merged, so a vertex may have several links.
-/

namespace SolutionSurvey.Reading

open SolutionSurvey.Grammar

structure Link where
  below : Nat
  /-- The tree between the vertices; none where the thread was lost. -/
  tree : Option Tree
  deriving Inhabited

structure Vertex where
  state : Nat
  position : Position
  links : List Link
  cost : Nat
  weight : Int
  count : Nat
  deriving Inhabited

/-- A state on a branch below the place where the thread was lost. -/
structure Landing where
  position : Position
  depth : Nat
  state : Nat
  deriving Inhabited

inductive Status where
  | active
  /-- The branch cannot go on with the token ahead. -/
  | paused (ahead : Option Tree)
  | halted
  deriving Inhabited

structure Branch where
  vertex : Nat
  countAtError : Nat
  context : Context
  landings : Option (Array Landing)
  status : Status
  deriving Inhabited

structure Stack where
  vertices : Array Vertex
  branches : Array Branch

/-- The trees taken off one branch, and the branch that is left. -/
structure Slice where
  branch : Nat
  trees : List Tree
  deriving Inhabited

namespace Stack

/-- How many links a vertex may have. -/
def linkLimit : Nat := 8

/-- How many paths are followed at once. -/
def pathLimit : Nat := 64

def start (text : Position) : Stack :=
  { vertices := #[⟨Automaton.start, text, [], 0, 0, 0⟩]
    branches := #[⟨0, 0, .outside, none, .active⟩] }

def vertex (stack : Stack) (number : Nat) : Vertex := stack.vertices.getD number default

def branch (stack : Stack) (number : Nat) : Branch := stack.branches.getD number default

def top (stack : Stack) (number : Nat) : Vertex := stack.vertex (stack.branch number).vertex

def state (stack : Stack) (number : Nat) : Nat := (stack.top number).state

def position (stack : Stack) (number : Nat) : Position := (stack.top number).position

def isActive (stack : Stack) (number : Nat) : Bool :=
  match (stack.branch number).status with
  | .active => true
  | _ => false

def isPaused (stack : Stack) (number : Nat) : Bool :=
  match (stack.branch number).status with
  | .paused _ => true
  | _ => false

def isHalted (stack : Stack) (number : Nat) : Bool :=
  match (stack.branch number).status with
  | .halted => true
  | _ => false

def modifyBranch (stack : Stack) (number : Nat) (change : Branch → Branch) : Stack :=
  { stack with branches := stack.branches.modify number change }

def halt (stack : Stack) (number : Nat) : Stack :=
  stack.modifyBranch number fun branch => { branch with status := .halted }

def pause (stack : Stack) (number : Nat) (ahead : Option Tree) : Stack :=
  stack.modifyBranch number fun branch =>
    { branch with status := .paused ahead, countAtError := (stack.top number).count }

def remove (stack : Stack) (number : Nat) : Stack :=
  { stack with branches := stack.branches.eraseIdxIfInBounds number }

def push (stack : Stack) (number : Nat) (tree : Option Tree) (state : Nat) : Stack :=
  let branch := stack.branch number
  let below := stack.vertex branch.vertex
  let added : Vertex :=
    match tree with
    | none => ⟨state, below.position, [⟨branch.vertex, none⟩], below.cost, below.weight, below.count⟩
    | some tree =>
        ⟨state, tree.label.stop, [⟨branch.vertex, some tree⟩], below.cost + tree.cost,
          below.weight + tree.label.weight, below.count + tree.count⟩
  let place := stack.vertices.size
  { vertices := stack.vertices.push added
    branches := stack.branches.modify number fun branch =>
      { branch with
        vertex := place
        countAtError := if tree.isNone then added.count else branch.countAtError } }

def copy (stack : Stack) (number : Nat) : Stack × Nat :=
  let place := stack.branches.size
  ({ stack with branches := stack.branches.push { stack.branch number with landings := none } },
    place)

/-- Put one branch in the place of an earlier one. -/
def replace (stack : Stack) (source target : Nat) : Stack :=
  if source == target then stack
  else
    let moved := stack.branch source
    let old := stack.branch target
    let moved := { moved with landings := moved.landings.or old.landings }
    { stack with branches := (stack.branches.setIfInBounds target moved).eraseIdxIfInBounds source }

def swap (stack : Stack) (left right : Nat) : Stack :=
  { stack with branches := stack.branches.swapIfInBounds left right }

/-! ### Merging -/

/-- Whether two trees are alternatives of which one is enough to go on. -/
def alike (left right : Option Tree) : Bool :=
  match left, right with
  | none, none => true
  | some left, some right =>
      left.symbol == right.symbol &&
        ((left.cost > 0 && right.cost > 0) ||
          (left.label.start.bytes == right.label.start.bytes &&
            left.bytes == right.bytes &&
            left.children.length == right.children.length &&
            left.extra == right.extra &&
            left.label.context == right.label.context))
  | _, _ => false

def linkWeight (link : Link) : Int := ((link.tree).map (·.label.weight)).getD 0

def linkCount (link : Link) : Nat := ((link.tree).map (·.count)).getD 0

mutual

/-- Give a vertex one more way down, unless a known one serves. -/
def addLink (fuel : Nat) (vertices : Array Vertex) (number : Nat) (link : Link) : Array Vertex :=
  match fuel with
  | 0 => vertices
  | fuel + 1 =>
      if link.below == number then vertices
      else
        let vertex := vertices.getD number default
        let lower := vertices.getD link.below default
        match vertex.links.findIdx? fun known =>
            alike known.tree link.tree &&
              (known.below == link.below ||
                (let other := vertices.getD known.below default
                 other.state == lower.state && other.position.bytes == lower.position.bytes &&
                  other.cost == lower.cost)) with
        | some place =>
            let known := vertex.links.getD place default
            let weight := lower.weight + linkWeight link
            if known.below == link.below then
              if linkWeight known < linkWeight link then
                vertices.setIfInBounds number { vertex with links := vertex.links.set place link, weight }
              else vertices
            else
              let vertices := addLinks fuel vertices known.below lower.links
              if vertex.weight < weight then
                vertices.modify number fun vertex => { vertex with weight }
              else vertices
        | none =>
            if vertex.links.length ≥ linkLimit then vertices
            else
              let count := lower.count + linkCount link
              let weight := lower.weight + linkWeight link
              vertices.setIfInBounds number
                { vertex with
                  links := vertex.links ++ [link]
                  count := max vertex.count count
                  weight := max vertex.weight weight }

def addLinks (fuel : Nat) (vertices : Array Vertex) (number : Nat) (links : List Link) :
    Array Vertex :=
  match fuel with
  | 0 => vertices
  | fuel + 1 =>
      match links with
      | [] => vertices
      | link :: rest => addLinks fuel (addLink fuel vertices number link) number rest

end

def canMerge (stack : Stack) (first second : Nat) : Bool :=
  stack.isActive first && stack.isActive second &&
    (let left := stack.top first
     let right := stack.top second
     left.state == right.state && left.position.bytes == right.position.bytes &&
      left.cost == right.cost) &&
    (stack.branch first).context == (stack.branch second).context

/-- Merge the second branch into the first, if they agree. -/
def merge (stack : Stack) (first second : Nat) : Stack × Bool :=
  if !stack.canMerge first second then (stack, false)
  else
    let target := (stack.branch first).vertex
    let links := (stack.top second).links
    let vertices := addLinks (stack.vertices.size * 4 + 64) stack.vertices target links
    let merged : Stack := { stack with vertices }
    let merged :=
      if merged.state first == Automaton.lost then
        merged.modifyBranch first fun branch =>
          { branch with countAtError := (vertices.getD target default).count }
      else merged
    (merged.remove second, true)

/-! ### Taking trees off -/

structure Path where
  vertex : Nat
  /-- The trees passed, the lowest first. -/
  trees : List Tree
  /-- How many of them are not extra. -/
  depth : Nat

structure Verdict where
  take : Bool
  stop : Bool

/-- Keep a path's trees on the branch that ends where the path does. -/
def addSlice (stack : Stack) (original : Branch) (slices : Array Slice) (path : Path) :
    Stack × Array Slice :=
  let same := (List.range slices.size).reverse.find? fun place =>
    (stack.branch (slices.getD place default).branch).vertex == path.vertex
  match same with
  | some place =>
      let slice : Slice := ⟨(slices.getD place default).branch, path.trees⟩
      (stack, slices.insertIdx! (place + 1) slice)
  | none =>
      let number := stack.branches.size
      let added : Branch := ⟨path.vertex, original.countAtError, original.context, none, .active⟩
      ({ stack with branches := stack.branches.push added }, slices.push ⟨number, path.trees⟩)

def followLink (path : Path) (link : Link) : Path :=
  match link.tree with
  | none => { path with vertex := link.below, depth := path.depth + 1 }
  | some tree =>
      { vertex := link.below
        trees := tree :: path.trees
        depth := if tree.extra then path.depth else path.depth + 1 }

/-- One step down on every path.  The first link continues a path; others begin new ones. -/
def popRound {σ : Type} (judge : σ → Vertex → Path → σ × Verdict) (original : Branch) :
    List Path → Nat → σ → Stack → Array Slice → Array Path → Array Path →
      σ × Stack × Array Slice × Array Path
  | [], _, memory, stack, slices, going, fresh => (memory, stack, slices, going ++ fresh)
  | path :: rest, others, memory, stack, slices, going, fresh =>
      let vertex := stack.vertex path.vertex
      let (memory, verdict) := judge memory vertex path
      let (stack, slices) :=
        if verdict.take then addSlice stack original slices path else (stack, slices)
      match vertex.links with
      | [] => popRound judge original rest others memory stack slices going fresh
      | first :: more =>
          if verdict.stop then popRound judge original rest others memory stack slices going fresh
          else
            let fresh := more.foldl (fun fresh link =>
              if going.size + fresh.size + rest.length + 1 ≥ pathLimit then fresh
              else fresh.push (followLink path link)) fresh
            popRound judge original rest others memory stack slices
              (going.push (followLink path first)) fresh

def popLoop {σ : Type} (judge : σ → Vertex → Path → σ × Verdict) (original : Branch) :
    Nat → σ → Stack → Array Slice → Array Path → σ × Stack × Array Slice
  | 0, memory, stack, slices, _ => (memory, stack, slices)
  | fuel + 1, memory, stack, slices, paths =>
      if paths.isEmpty then (memory, stack, slices)
      else
        let (memory, stack, slices, paths) :=
          popRound judge original paths.toList 0 memory stack slices #[] #[]
        popLoop judge original fuel memory stack slices paths

/-- Follow every path down from a branch until the judge stops it. -/
def popWith {σ : Type} (stack : Stack) (number : Nat) (memory : σ)
    (judge : σ → Vertex → Path → σ × Verdict) : σ × Stack × Array Slice :=
  let original := stack.branch number
  popLoop judge original (stack.vertices.size + 2) memory stack #[] #[⟨original.vertex, [], 0⟩]

/-- Take that many trees off a branch, not counting extras. -/
def popCount (stack : Stack) (number count : Nat) : Stack × Array Slice :=
  (stack.popWith number () fun _ _ path =>
    ((), if path.depth == count then ⟨true, true⟩ else ⟨false, false⟩)).2

def popAll (stack : Stack) (number : Nat) : Stack × Array Slice :=
  (stack.popWith number () fun _ vertex _ => ((), ⟨vertex.links.isEmpty, false⟩)).2

/-- Take an error off the end of a branch, if one stands there. -/
def popError (stack : Stack) (number : Nat) : Stack × List Tree :=
  let found := (stack.top number).links.any fun link => ((link.tree).map Tree.isError).getD false
  if !found then (stack, [])
  else
    let (_, popped, slices) := stack.popWith number false fun taken _ path =>
      match path.trees with
      | [] => (taken, ⟨false, false⟩)
      | tree :: _ =>
          if !taken && tree.isError then (true, ⟨true, true⟩) else (taken, ⟨false, true⟩)
    match slices[0]? with
    | none => (popped, [])
    | some slice => (popped.replace slice.branch number, slice.trees)

/-- Note the states on a branch down to a depth, the nearest first. -/
def recordLandings (stack : Stack) (number depthLimit : Nat) : Stack :=
  let (landings, _, _) := stack.popWith number (#[] : Array Landing) fun landings vertex path =>
    if path.depth > depthLimit then (landings, ⟨false, true⟩)
    else
      if landings.any fun landing => landing.depth == path.depth && landing.state == vertex.state
      then (landings, ⟨false, false⟩)
      else (landings.push ⟨vertex.position, path.depth, vertex.state⟩, ⟨false, false⟩)
  stack.modifyBranch number fun branch => { branch with landings := some landings }

/-! ### Figures -/

def errorCost (stack : Stack) (number : Nat) : Nat :=
  let top := stack.top number
  let lostHere := top.state == Automaton.lost &&
    ((top.links.head?).map fun link => link.tree.isNone).getD false
  if stack.isPaused number || lostHere then top.cost + Tree.costPerRecovery else top.cost

/-- How many trees were read on a branch since its last error. -/
def countSinceError (stack : Stack) (number : Nat) : Nat :=
  (stack.top number).count - (stack.branch number).countAtError

def advancedFrom (vertices : Array Vertex) (countAtError : Nat) : Nat → Nat → Bool
  | 0, _ => false
  | fuel + 1, number =>
      let vertex := vertices.getD number default
      match vertex.links.head? with
      | some ⟨below, some tree⟩ =>
          if (vertices.getD below default).position.bytes < vertex.position.bytes then true
          else if countAtError < vertex.count && tree.cost == 0 then
            advancedFrom vertices countAtError fuel below
          else false
      | _ => false

/-- Whether a branch has read any text since its last error. -/
def hasAdvanced (stack : Stack) (number : Nat) : Bool :=
  let branch := stack.branch number
  if (stack.vertex branch.vertex).cost == 0 then true
  else advancedFrom stack.vertices branch.countAtError (stack.vertices.size + 1) branch.vertex

end Stack

end SolutionSurvey.Reading
