import P2PHub.JsonTrees

/-!
# The source scanner

The scan of one file of a plugin for critical patterns, over the syntax tree
that the TypeScript parser gives, and which nodes of the tree it flags.
-/

namespace P2PHub.Scanner

open Json

inductive BinaryOperator
  | plus
  | comma
  | other
  deriving DecidableEq

/-- A node of a syntax tree, as far as the scanner tells nodes apart.  A string
literal can be a template without substitutions, and the text of a token is that
of `tokenToString`.  An export without a module and an import of an entity name
are among the other nodes. -/
inductive SyntaxNode
  | stringLiteral (text : JsonString)
  | parenthesized (expression : SyntaxNode)
  | binary (operator : BinaryOperator) (left right : SyntaxNode)
  | identifier (text : JsonString)
  | propertyAccess (line : Nat) (expression : SyntaxNode) (name : JsonString)
  | elementAccess (expression argument : SyntaxNode)
  | token (text : Option JsonString)
  | call (line : Nat) (callee : SyntaxNode) (typeArguments arguments : List SyntaxNode)
  | new (line : Nat) (callee : SyntaxNode) (typeArguments arguments : List SyntaxNode)
  | importDeclaration (line : Nat) (typeOnly : Bool) (clause : List SyntaxNode)
      (moduleSpecifier : SyntaxNode)
  | exportFrom (line : Nat) (typeOnly : Bool) (clause : List SyntaxNode)
      (moduleSpecifier : SyntaxNode)
  | importEquals (line : Nat) (clause : List SyntaxNode) (reference : SyntaxNode)
  | other (children : List SyntaxNode)

def SyntaxNode.children : SyntaxNode → List SyntaxNode
  | stringLiteral _ | identifier _ | token _ => []
  | parenthesized expression => [expression]
  | binary _ left right => [left, right]
  | propertyAccess _ expression _ => [expression]
  | elementAccess expression argument => [expression, argument]
  | call _ callee typeArguments arguments => callee :: (typeArguments ++ arguments)
  | new _ callee typeArguments arguments => callee :: (typeArguments ++ arguments)
  | importDeclaration _ _ clause moduleSpecifier => clause ++ [moduleSpecifier]
  | exportFrom _ _ clause moduleSpecifier => clause ++ [moduleSpecifier]
  | importEquals _ clause reference => clause ++ [reference]
  | other children => children

/-- A node occurs in a tree, in any position. -/
inductive Occurs (node : SyntaxNode) : SyntaxNode → Prop
  | here : Occurs node node
  | child {child tree : SyntaxNode} (isChild : child ∈ tree.children)
      (occurs : Occurs node child) : Occurs node tree

/-- The sensitive modules, without the prefix `node:`. -/
def sensitiveModules : List JsonString :=
  ["net", "tls", "http", "https", "http2", "dgram", "dns", "child_process", "fs",
    "fs/promises", "worker_threads", "cluster", "vm", "process"].map jsonString

def networkModules : List JsonString :=
  ["net", "tls", "http", "https", "http2", "dgram", "dns"].map jsonString

def criticalModules : List JsonString :=
  ["child_process", "worker_threads", "cluster", "vm"].map jsonString

inductive Severity
  | critical
  | advisory
  deriving DecidableEq

inductive FindingKind
  | module
  | pattern
  | permission
  deriving DecidableEq

structure Flag where
  severity : Severity
  kind : FindingKind
  detail : JsonString
  via : JsonString
  line : Option Nat
  deriving DecidableEq

/-- The module name `node:`. -/
def nodeScheme : JsonString :=
  jsonString "node:"

def normalizeModule (spec : JsonString) : JsonString :=
  if nodeScheme.isPrefixOf spec then spec.drop 5 else spec

def foldString : SyntaxNode → Option JsonString
  | .stringLiteral text => some text
  | .parenthesized expression => foldString expression
  | .binary .plus left right => do
      let left ← foldString left
      let right ← foldString right
      return left ++ right
  | _ => none

def skipParentheses : SyntaxNode → SyntaxNode
  | .parenthesized expression => skipParentheses expression
  | node => node

def ownName : SyntaxNode → Option JsonString
  | .identifier text => some text
  | .propertyAccess _ _ name => some name
  | .elementAccess _ argument => foldString argument
  | .token text => text
  | _ => none

/-- The name that is called, through parentheses and a sequence. -/
def calleeName (expression : SyntaxNode) : Option JsonString :=
  match skipParentheses expression with
  | .binary .comma _ right => ownName (skipParentheses right)
  | node => ownName node

structure ScanState where
  flags : List Flag
  modules : List JsonString
  seenProcessEnv : Bool

def ScanState.push (state : ScanState) (flag : Flag) : ScanState :=
  { state with flags := state.flags ++ [flag] }

def ScanState.addModule (state : ScanState) (spec : JsonString) : ScanState :=
  if spec ∈ state.modules then state else { state with modules := state.modules ++ [spec] }

def moduleSeverity (bare : JsonString) : Severity :=
  if bare ∈ criticalModules then .critical else .advisory

def checkModuleSpecifier (node : SyntaxNode) (via : String) (line : Nat) (state : ScanState) :
    ScanState :=
  match foldString node with
  | some spec =>
    let bare := normalizeModule spec
    let added := state.addModule spec
    if bare ∈ sensitiveModules then
      added.push ⟨moduleSeverity bare, .module,
        jsonString "requires sensitive module \"" ++ bare ++ jsonString "\"", jsonString via, line⟩
    else added
  | none => state.push ⟨.critical, .pattern,
      jsonString "require/import specifier is not a constant (runtime-computed path)",
      jsonString via, line⟩

def criticalPattern (detail via : String) (line : Nat) : Flag :=
  ⟨.critical, .pattern, jsonString detail, jsonString via, line⟩

def checkCall (line : Nat) (callee : SyntaxNode) (arguments : List SyntaxNode)
    (state : ScanState) : ScanState :=
  match calleeName callee, arguments with
  | some name, [] =>
    if name = jsonString "eval" then state.push (criticalPattern "direct eval call" "call" line)
    else if name = jsonString "Function" then
      state.push (criticalPattern "Function constructor call" "call" line)
    else state
  | some name, first :: _ =>
    if name = jsonString "require" then checkModuleSpecifier first "require()" line state
    else if name = jsonString "import" then checkModuleSpecifier first "import()" line state
    else if name = jsonString "eval" then
      state.push (criticalPattern "direct eval call" "call" line)
    else if name = jsonString "Function" then
      state.push (criticalPattern "Function constructor call" "call" line)
    else state
  | none, _ => state

def checkNew (line : Nat) (callee : SyntaxNode) (state : ScanState) : ScanState :=
  if calleeName callee = some (jsonString "Function") then
    state.push (criticalPattern "new Function(...) constructor" "new" line)
  else state

/-- A module that a declaration names, unless it names types only. -/
def checkDeclaration (typeOnly : Bool) (moduleSpecifier : SyntaxNode) (via : String) (line : Nat)
    (state : ScanState) : ScanState :=
  if typeOnly then state else checkModuleSpecifier moduleSpecifier via line state

/-- One flag a file for `process.env`. -/
def checkProcessEnv (line : Nat) (expression : SyntaxNode) (name : JsonString)
    (state : ScanState) : ScanState :=
  match expression with
  | .identifier text =>
    if !state.seenProcessEnv && text = jsonString "process" && name = jsonString "env" then
      { state with seenProcessEnv := true }.push ⟨.advisory, .pattern,
        jsonString "process.env access (one per file)", jsonString "member", line⟩
    else state
  | _ => state

mutual

def visit : SyntaxNode → ScanState → ScanState
  | .stringLiteral _, state => state
  | .identifier _, state => state
  | .token _, state => state
  | .parenthesized expression, state => visit expression state
  | .binary _ left right, state => visit right (visit left state)
  | .propertyAccess line expression name, state =>
    visit expression (checkProcessEnv line expression name state)
  | .elementAccess expression argument, state => visit argument (visit expression state)
  | .call line callee typeArguments arguments, state =>
    visitAll arguments (visitAll typeArguments (visit callee
      (checkCall line callee arguments state)))
  | .new line callee typeArguments arguments, state =>
    visitAll arguments (visitAll typeArguments (visit callee (checkNew line callee state)))
  | .importDeclaration line typeOnly clause moduleSpecifier, state =>
    visit moduleSpecifier (visitAll clause
      (checkDeclaration typeOnly moduleSpecifier "import" line state))
  | .exportFrom line typeOnly clause moduleSpecifier, state =>
    visit moduleSpecifier (visitAll clause
      (checkDeclaration typeOnly moduleSpecifier "export-from" line state))
  | .importEquals line clause reference, state =>
    visit reference (visitAll clause (checkModuleSpecifier reference "import-equals" line state))
  | .other children, state => visitAll children state

def visitAll : List SyntaxNode → ScanState → ScanState
  | [], state => state
  | node :: nodes, state => visitAll nodes (visit node state)

end

def scanSource (tree : SyntaxNode) : ScanState :=
  visit tree ⟨[], [], false⟩

section

inductive Constant : SyntaxNode → JsonString → Prop
  | literal (text : JsonString) : Constant (.stringLiteral text) text
  | parenthesized {expression : SyntaxNode} {text : JsonString}
      (constant : Constant expression text) : Constant (.parenthesized expression) text
  | concatenation {left right : SyntaxNode} {text other : JsonString}
      (leftConstant : Constant left text) (rightConstant : Constant right other) :
      Constant (.binary .plus left right) (text ++ other)

/-- A node inside any number of parentheses. -/
inductive Inside : SyntaxNode → SyntaxNode → Prop
  | none (node : SyntaxNode) : Inside node node
  | parenthesized {expression node : SyntaxNode} (inside : Inside expression node) :
      Inside (.parenthesized expression) node

inductive Names : SyntaxNode → JsonString → Prop
  | identifier (text : JsonString) : Names (.identifier text) text
  | member (line : Nat) (expression : SyntaxNode) (name : JsonString) :
      Names (.propertyAccess line expression name) name
  | element {expression argument : SyntaxNode} {text : JsonString}
      (constant : Constant argument text) : Names (.elementAccess expression argument) text
  | keyword (text : JsonString) : Names (.token (some text)) text

/-- A callee has a name, itself or as the last of a sequence, in parentheses or
not. -/
inductive Calls : SyntaxNode → JsonString → Prop
  | directly {callee node : SyntaxNode} {name : JsonString} (inside : Inside callee node)
      (names : Names node name) : Calls callee name
  | sequence {callee left right node : SyntaxNode} {name : JsonString}
      (inside : Inside callee (.binary .comma left right)) (last : Inside right node)
      (names : Names node name) : Calls callee name

/-- A module specifier that is computed at run time, or that names a critical
module. -/
def CriticalSpecifier (node : SyntaxNode) : Prop :=
  (∀ text, ¬Constant node text) ∨
    ∃ text, Constant node text ∧ normalizeModule text ∈ criticalModules

inductive Critical : SyntaxNode → Prop
  | evalCall {line : Nat} {callee : SyntaxNode} {typeArguments arguments : List SyntaxNode}
      (calls : Calls callee (jsonString "eval")) :
      Critical (.call line callee typeArguments arguments)
  | functionCall {line : Nat} {callee : SyntaxNode} {typeArguments arguments : List SyntaxNode}
      (calls : Calls callee (jsonString "Function")) :
      Critical (.call line callee typeArguments arguments)
  | requireCall {line : Nat} {callee first : SyntaxNode} {typeArguments rest : List SyntaxNode}
      (calls : Calls callee (jsonString "require")) (critical : CriticalSpecifier first) :
      Critical (.call line callee typeArguments (first :: rest))
  | importCall {line : Nat} {callee first : SyntaxNode} {typeArguments rest : List SyntaxNode}
      (calls : Calls callee (jsonString "import")) (critical : CriticalSpecifier first) :
      Critical (.call line callee typeArguments (first :: rest))
  | newFunction {line : Nat} {callee : SyntaxNode} {typeArguments arguments : List SyntaxNode}
      (calls : Calls callee (jsonString "Function")) :
      Critical (.new line callee typeArguments arguments)
  | importDeclaration {line : Nat} {clause : List SyntaxNode} {moduleSpecifier : SyntaxNode}
      (critical : CriticalSpecifier moduleSpecifier) :
      Critical (.importDeclaration line false clause moduleSpecifier)
  | exportFrom {line : Nat} {clause : List SyntaxNode} {moduleSpecifier : SyntaxNode}
      (critical : CriticalSpecifier moduleSpecifier) :
      Critical (.exportFrom line false clause moduleSpecifier)
  | importEquals {line : Nat} {clause : List SyntaxNode} {reference : SyntaxNode}
      (critical : CriticalSpecifier reference) :
      Critical (.importEquals line clause reference)

variable {node callee : SyntaxNode} {name : JsonString}

theorem foldString_iff {text : JsonString} : foldString node = some text ↔ Constant node text := by
  constructor
  · intro folded
    induction node using foldString.induct generalizing text with
    | case1 literal =>
      cases folded
      exact .literal literal
    | case2 expression ih => exact .parenthesized (ih folded)
    | case3 left right leftIh rightIh =>
      obtain ⟨first, leftFolded, folded⟩ := Option.bind_eq_some_iff.mp folded
      obtain ⟨second, rightFolded, same⟩ := Option.bind_eq_some_iff.mp folded
      cases same
      exact .concatenation (leftIh leftFolded) (rightIh rightFolded)
    | case4 node noLiteral noParentheses noSum =>
      rw [foldString] at folded
      · cases folded
      · exact noLiteral
      · exact noParentheses
      · exact noSum
  · intro constant
    induction constant with
    | literal => rfl
    | parenthesized _ ih => exact ih
    | concatenation _ _ leftIh rightIh => rw [foldString, leftIh, rightIh]; rfl

theorem inside_skipParentheses (node : SyntaxNode) : Inside node (skipParentheses node) := by
  induction node using skipParentheses.induct with
  | case1 expression ih => exact .parenthesized ih
  | case2 node isOther =>
    rw [skipParentheses]
    · exact .none node
    · exact isOther

theorem skipParentheses_of_inside (inside : Inside callee node)
    (plain : skipParentheses node = node) : skipParentheses callee = node := by
  induction inside with
  | none => exact plain
  | parenthesized _ ih => exact ih plain

theorem ownName_iff : ownName node = some name ↔ Names node name := by
  constructor
  · intro named
    cases node with
    | identifier =>
      cases named
      exact .identifier name
    | propertyAccess line expression =>
      cases named
      exact .member line expression name
    | elementAccess => exact .element (foldString_iff.mp named)
    | token =>
      cases named
      exact .keyword name
    | _ => cases named
  · intro names
    cases names with
    | identifier | member | keyword => rfl
    | element constant => exact foldString_iff.mpr constant

theorem Names.plain (names : Names node name) : skipParentheses node = node := by
  cases names <;> rfl

theorem calleeName_iff : calleeName callee = some name ↔ Calls callee name := by
  constructor
  · intro called
    have inside := inside_skipParentheses callee
    unfold calleeName at called
    split at called
    · next left right skipped =>
        rw [skipped] at inside
        exact .sequence inside (inside_skipParentheses right) (ownName_iff.mp called)
    · exact .directly inside (ownName_iff.mp called)
  · intro calls
    cases calls with
    | directly inside names =>
      rw [calleeName, skipParentheses_of_inside inside names.plain]
      have named := ownName_iff.mpr names
      cases names <;> exact named
    | sequence inside last names =>
      rw [calleeName, skipParentheses_of_inside inside rfl]
      dsimp only
      rw [skipParentheses_of_inside last names.plain]
      exact ownName_iff.mpr names

theorem criticalSpecifier_iff : CriticalSpecifier node ↔
    (foldString node).all (fun spec => decide (normalizeModule spec ∈ criticalModules)) := by
  unfold CriticalSpecifier
  cases folded : foldString node with
  | none =>
    have computed (text : JsonString) : ¬Constant node text := by
      rw [← foldString_iff, folded]
      exact nofun
    simp [computed]
  | some spec =>
    have constant := foldString_iff.mp folded
    rw [Option.all_some, decide_eq_true_eq]
    constructor
    · rintro (computed | ⟨text, isText, critical⟩)
      · exact absurd constant (computed spec)
      · cases (foldString_iff.mpr isText).symm.trans folded
        exact critical
    · intro critical
      exact Or.inr ⟨spec, constant, critical⟩

end

variable {state : ScanState} {node : SyntaxNode} {line : Nat} {callee : SyntaxNode}
  {typeArguments arguments : List SyntaxNode}

def Contains (tree : SyntaxNode) : Prop :=
  ∃ node, Occurs node tree ∧ Critical node

theorem contains_iff {tree : SyntaxNode} :
    Contains tree ↔ Critical tree ∨ ∃ child ∈ tree.children, Contains child := by
  constructor
  · rintro ⟨node, occurs, critical⟩
    cases occurs with
    | here => exact Or.inl critical
    | child isChild occurs => exact Or.inr ⟨_, isChild, node, occurs, critical⟩
  · rintro (critical | ⟨child, isChild, node, occurs, critical⟩)
    · exact ⟨tree, .here, critical⟩
    · exact ⟨node, .child isChild occurs, critical⟩

def ScanState.HasCritical (state : ScanState) : Prop :=
  ∃ flag ∈ state.flags, flag.severity = .critical

theorem hasCritical_push {flag : Flag} : (state.push flag).HasCritical ↔
    state.HasCritical ∨ flag.severity = .critical := by
  simp only [ScanState.HasCritical, ScanState.push, List.mem_append, List.mem_singleton]
  constructor
  · rintro ⟨other, earlier | rfl, critical⟩
    · exact Or.inl ⟨other, earlier, critical⟩
    · exact Or.inr critical
  · rintro (⟨other, earlier, critical⟩ | critical)
    · exact ⟨other, Or.inl earlier, critical⟩
    · exact ⟨flag, Or.inr rfl, critical⟩

theorem flags_addModule (state : ScanState) (spec : JsonString) :
    (state.addModule spec).flags = state.flags := by
  unfold ScanState.addModule
  split <;> rfl

theorem hasCritical_addModule {spec : JsonString} :
    (state.addModule spec).HasCritical ↔ state.HasCritical := by
  rw [ScanState.HasCritical, flags_addModule, ScanState.HasCritical]

theorem sensitive_of_critical {bare : JsonString} (critical : bare ∈ criticalModules) :
    bare ∈ sensitiveModules := by
  have subset : ∀ bare ∈ criticalModules, bare ∈ sensitiveModules := by decide +kernel
  exact subset bare critical

theorem moduleSeverity_critical {bare : JsonString} :
    moduleSeverity bare = .critical ↔ bare ∈ criticalModules := by
  unfold moduleSeverity
  split <;> simp_all

theorem hasCritical_checkModuleSpecifier {via : String} :
    (checkModuleSpecifier node via line state).HasCritical ↔
      state.HasCritical ∨ CriticalSpecifier node := by
  rw [criticalSpecifier_iff]
  unfold checkModuleSpecifier
  cases foldString node with
  | none => simp [hasCritical_push]
  | some spec =>
    dsimp only
    rw [Option.all_some, decide_eq_true_eq]
    split
    · rw [hasCritical_push, hasCritical_addModule, moduleSeverity_critical]
    · next harmless =>
        have plain : normalizeModule spec ∉ criticalModules :=
          fun critical => harmless (sensitive_of_critical critical)
        simp [hasCritical_addModule, plain]

theorem critical_new : Critical (.new line callee typeArguments arguments) ↔
      calleeName callee = some (jsonString "Function") := by
  rw [calleeName_iff]
  constructor
  · intro critical
    cases critical with
    | newFunction calls => exact calls
  · exact .newFunction

theorem critical_call : Critical (.call line callee typeArguments arguments) ↔
      calleeName callee = some (jsonString "eval") ∨
      calleeName callee = some (jsonString "Function") ∨
      (calleeName callee = some (jsonString "require") ∨
        calleeName callee = some (jsonString "import")) ∧
        ∃ first rest, arguments = first :: rest ∧ CriticalSpecifier first := by
  simp only [calleeName_iff]
  constructor
  · intro critical
    cases critical with
    | evalCall calls => exact Or.inl calls
    | functionCall calls => exact Or.inr (Or.inl calls)
    | requireCall calls critical => exact Or.inr (Or.inr ⟨Or.inl calls, _, _, rfl, critical⟩)
    | importCall calls critical => exact Or.inr (Or.inr ⟨Or.inr calls, _, _, rfl, critical⟩)
  · rintro (calls | calls | ⟨calls | calls, first, rest, rfl, critical⟩)
    · exact .evalCall calls
    · exact .functionCall calls
    · exact .requireCall calls critical
    · exact .importCall calls critical

theorem hasCritical_checkCall (typeArguments : List SyntaxNode) :
    (checkCall line callee arguments state).HasCritical ↔
      state.HasCritical ∨ Critical (.call line callee typeArguments arguments) := by
  have apart : jsonString "eval" ≠ jsonString "Function" ∧
      jsonString "require" ≠ jsonString "eval" ∧ jsonString "require" ≠ jsonString "Function" ∧
      jsonString "import" ≠ jsonString "eval" ∧ jsonString "import" ≠ jsonString "Function" := by
    decide +kernel
  obtain ⟨evalFunction, requireEval, requireFunction, importEval, importFunction⟩ := apart
  rw [critical_call]
  unfold checkCall
  split
  · next name called =>
      rw [called]
      split
      · next isEval => simp [hasCritical_push, criticalPattern, isEval]
      · split
        · next isFunction => simp [hasCritical_push, criticalPattern, isFunction]
        · next notEval notFunction => simp [notEval, notFunction]
  · next name first rest called =>
      rw [called]
      split
      · next isRequire =>
          rw [hasCritical_checkModuleSpecifier]
          simp [isRequire, requireEval, requireFunction]
      · split
        · next isImport =>
            rw [hasCritical_checkModuleSpecifier]
            simp [isImport, importEval, importFunction]
        · split
          · next isEval => simp [hasCritical_push, criticalPattern, isEval]
          · split
            · next isFunction => simp [hasCritical_push, criticalPattern, isFunction]
            · next notRequire notImport notEval notFunction =>
                simp [notRequire, notImport, notEval, notFunction]
  · next called => simp [called]

theorem hasCritical_checkNew (typeArguments arguments : List SyntaxNode) :
    (checkNew line callee state).HasCritical ↔
      state.HasCritical ∨ Critical (.new line callee typeArguments arguments) := by
  rw [critical_new]
  unfold checkNew
  split
  · next isFunction => simp [hasCritical_push, criticalPattern, isFunction]
  · next notFunction => simp [notFunction]

theorem hasCritical_checkDeclaration {typeOnly : Bool} {via : String} :
    (checkDeclaration typeOnly node via line state).HasCritical ↔
      state.HasCritical ∨ typeOnly = false ∧ CriticalSpecifier node := by
  unfold checkDeclaration
  cases typeOnly with
  | true => simp
  | false => simp [hasCritical_checkModuleSpecifier]

theorem hasCritical_checkProcessEnv {expression : SyntaxNode} {name : JsonString} :
    (checkProcessEnv line expression name state).HasCritical ↔ state.HasCritical := by
  unfold checkProcessEnv
  split
  · split
    · rw [hasCritical_push]
      simp [ScanState.HasCritical]
    · rfl
  · rfl

mutual

theorem hasCritical_visit (node : SyntaxNode) (state : ScanState) :
    (visit node state).HasCritical ↔ state.HasCritical ∨ Contains node := by
  rw [contains_iff]
  cases node with
  | stringLiteral | identifier | token =>
    have harmless (tree : SyntaxNode) (leaf : tree.children = []) (plain : ¬Critical tree) :
        state.HasCritical ↔
          state.HasCritical ∨ Critical tree ∨ ∃ child ∈ tree.children, Contains child := by
      simp [leaf, plain]
    exact harmless _ rfl nofun
  | parenthesized expression =>
    have plain : ¬Critical (.parenthesized expression) := nofun
    rw [visit, hasCritical_visit expression]
    simp [SyntaxNode.children, plain]
  | binary operator left right =>
    have plain : ¬Critical (.binary operator left right) := nofun
    rw [visit, hasCritical_visit right, hasCritical_visit left]
    simp [SyntaxNode.children, plain, or_assoc]
  | propertyAccess line expression name =>
    have plain : ¬Critical (.propertyAccess line expression name) := nofun
    rw [visit, hasCritical_visit expression, hasCritical_checkProcessEnv]
    simp [SyntaxNode.children, plain]
  | elementAccess expression argument =>
    have plain : ¬Critical (.elementAccess expression argument) := nofun
    rw [visit, hasCritical_visit argument, hasCritical_visit expression]
    simp [SyntaxNode.children, plain, or_assoc]
  | call line callee typeArguments arguments =>
    rw [visit, hasCritical_visitAll arguments, hasCritical_visitAll typeArguments,
      hasCritical_visit callee, hasCritical_checkCall typeArguments]
    simp [SyntaxNode.children, or_and_right, exists_or, or_assoc]
  | new line callee typeArguments arguments =>
    rw [visit, hasCritical_visitAll arguments, hasCritical_visitAll typeArguments,
      hasCritical_visit callee, hasCritical_checkNew typeArguments arguments]
    simp [SyntaxNode.children, or_and_right, exists_or, or_assoc]
  | importDeclaration line typeOnly clause moduleSpecifier =>
    have own : Critical (.importDeclaration line typeOnly clause moduleSpecifier) ↔
        typeOnly = false ∧ CriticalSpecifier moduleSpecifier := by
      constructor
      · rintro (_ | _)
        exact ⟨rfl, ‹_›⟩
      · rintro ⟨rfl, critical⟩
        exact .importDeclaration critical
    rw [visit, hasCritical_visit moduleSpecifier, hasCritical_visitAll clause,
      hasCritical_checkDeclaration, own]
    simp [SyntaxNode.children, or_and_right, exists_or, or_assoc]
  | exportFrom line typeOnly clause moduleSpecifier =>
    have own : Critical (.exportFrom line typeOnly clause moduleSpecifier) ↔
        typeOnly = false ∧ CriticalSpecifier moduleSpecifier := by
      constructor
      · rintro (_ | _)
        exact ⟨rfl, ‹_›⟩
      · rintro ⟨rfl, critical⟩
        exact .exportFrom critical
    rw [visit, hasCritical_visit moduleSpecifier, hasCritical_visitAll clause,
      hasCritical_checkDeclaration, own]
    simp [SyntaxNode.children, or_and_right, exists_or, or_assoc]
  | importEquals line clause reference =>
    have own : Critical (.importEquals line clause reference) ↔ CriticalSpecifier reference := by
      constructor
      · rintro (_ | _)
        assumption
      · exact .importEquals
    rw [visit, hasCritical_visit reference, hasCritical_visitAll clause,
      hasCritical_checkModuleSpecifier, own]
    simp [SyntaxNode.children, or_and_right, exists_or, or_assoc]
  | other children =>
    have plain : ¬Critical (.other children) := nofun
    rw [visit, hasCritical_visitAll children]
    simp [SyntaxNode.children, plain]

theorem hasCritical_visitAll (nodes : List SyntaxNode) (state : ScanState) :
    (visitAll nodes state).HasCritical ↔ state.HasCritical ∨ ∃ node ∈ nodes, Contains node := by
  cases nodes with
  | nil => simp [visitAll]
  | cons node nodes =>
    rw [visitAll, hasCritical_visitAll nodes, hasCritical_visit node, or_assoc]
    simp

end

/-- The scan of a file has a critical flag exactly when a critical pattern occurs
in it. -/
theorem hasCritical_scanSource (tree : SyntaxNode) :
    (scanSource tree).HasCritical ↔ Contains tree := by
  have start : ¬ScanState.HasCritical ⟨[], [], false⟩ := by
    rintro ⟨flag, member, _⟩
    cases member
  rw [scanSource, hasCritical_visit]
  simp [start]

end P2PHub.Scanner
