import ScanCircuit.Compilation

/-!
# Sessions

A session builds one automaton step by step. It holds the nodes under construction,
the automaton and the compilation made last, and the configuration of the text. A
request that fails leaves the session as it was.
-/

namespace ScanCircuit

/-- What a session holds. -/
structure Session where
  pending : List Node := []
  automaton : Option Automaton := none
  compilation : Option Compilation := none
  config : Circuit.Config := {}

namespace Session

/-- What can be asked of a session. -/
inductive Request where
  | node (id : Nat) (kind : NodeKind)
  | edge (label : CharSet) (dest : Nat)
  | clear
  | build
  | load (text : String)
  | nodeAt (id : Nat)
  | edgesAt (id : Nat)
  | window (name : String)
  | template (name : String)
  | indent (unit : String)
  | annotate (value : Bool)
  | resetConfig
  | compile
  | compileText (text : String)
  | counts
  | render
  | lookup
  | table

/-- What a session replies. -/
inductive Reply where
  | done
  | pending (count : Nat)
  | node (node : Node)
  | noNode
  | edges (edges : List Edge)
  | automaton (automaton : Automaton)
  | counts (counts : Circuit.Counts)
  | text (text : String)
  | table (table : Table)

/-- Why a request fails. -/
inductive Refusal where
  | noPendingNode
  | noAutomaton
  | noCompilation
  | unknownNode (message : String)
  | defect (defect : Defect)
  | load (error : LoadError)
  | compile (error : CompileError)
  | encoding (error : Unencodable)

/-- The sentence that says why a request fails. -/
def Refusal.message : Refusal → String
  | noPendingNode => "no node"
  | noAutomaton => "no automaton"
  | noCompilation => "no compilation"
  | unknownNode message => message
  | .defect broken => broken.message
  | load error => error.message
  | compile error => error.message
  | encoding error => error.message

/-- The automaton made last. -/
def theAutomaton (session : Session) : Except Refusal Automaton :=
  session.automaton.elim (.error .noAutomaton) .ok

/-- The compilation made last. -/
def theCompilation (session : Session) : Except Refusal Compilation :=
  session.compilation.elim (.error .noCompilation) .ok

/-- Add an edge to the last of the pending nodes. -/
def addEdge (session : Session) (label : CharSet) (dest : Nat) :
    Except Refusal (Reply × Session) :=
  match session.pending.getLast? with
  | none => .error .noPendingNode
  | some node =>
      let node := node.addEdge label dest
      .ok (.node node, { session with pending := session.pending.dropLast ++ [node] })

/-- Change the configuration. -/
def configure (session : Session) (config : Circuit.Config) : Except Refusal (Reply × Session) :=
  .ok (.done, { session with config })

/-- Answer a request. -/
def step (session : Session) : Request → Except Refusal (Reply × Session)
  | .node id kind =>
      let pending := session.pending ++ [Node.bare id kind]
      .ok (.pending pending.length, { session with pending })
  | .edge label dest => session.addEdge label dest
  | .clear => .ok (.pending 0, { session with pending := [] })
  | .build => do
      let automaton ← (Automaton.ofNodes session.pending).mapError .defect
      return (.automaton automaton, { session with automaton := some automaton })
  | .load text => do
      let automaton ← (Automaton.load text).mapError .load
      return (.automaton automaton, { session with automaton := some automaton })
  | .nodeAt id => do
      let automaton ← session.theAutomaton
      return ((automaton.node? id).elim .noNode .node, session)
  | .edgesAt id => do
      let automaton ← session.theAutomaton
      match automaton.edges? id with
      | some edges => return (.edges edges, session)
      | none => .error (.unknownNode (automaton.unknownNodeMessage id))
  | .window name => session.configure { session.config with window := name }
  | .template name => session.configure { session.config with template := some name }
  | .indent unit => session.configure { session.config with indent := unit }
  | .annotate value => session.configure { session.config with annotate := value }
  | .resetConfig => session.configure {}
  | .compile => do
      let automaton ← session.theAutomaton
      let compilation ← (Compilation.ofAutomaton automaton).mapError .compile
      return (.counts compilation.counts, { session with compilation := some compilation })
  | .compileText text => do
      let compilation ← (Compilation.load text).mapError .compile
      return (.counts compilation.counts, { session with compilation := some compilation })
  | .counts => do
      let compilation ← session.theCompilation
      return (.counts compilation.counts, session)
  | .render => do
      let compilation ← session.theCompilation
      return (.text (compilation.render session.config), session)
  | .lookup => do
      let compilation ← session.theCompilation
      return (.table compilation.table, session)
  | .table => do
      let automaton ← session.theAutomaton
      let table ← (Table.ofAutomaton automaton).mapError .encoding
      return (.table table, session)

end Session

end ScanCircuit
