import HardwareIR.Materialization
import HardwareIR.Proofs.Inserter
import HardwareIR.Proofs.TypeStore.Grounded
import HardwareIR.Registry.Standard

/-! # Sessions

A session is a list of calls, made one after the other on a context that is empty at first, whatever
hash its types are going to be filed by.  There is a `Call` for everything that can be done to a
context: making, linking and erasing objects, changing what they say, materializing constants,
asking for types, and registering operations and dialects.

`Call.run` makes a call and `Context.after` a whole session.  Calls that fail are part of a session:
what they did before they failed stays.  `Context.Reachable` are the contexts after sessions whose
calls name only types that were asked for before.
-/

namespace HardwareIR

/-- A request to change a context. -/
inductive Call where
  -- New objects.
  | newBlock (label : Option Identifier) (argumentTypes : List TypeRef)
  | newOperation (id : QualifiedName) (resultTypes : List TypeRef) (operands : List Value)
      (regionCount : Nat)
  | newModule (name : String)
  | newHwModule (name : String) (declarations : List ParamDecl)
  | newConstant (type literalType : TypeRef) (literal : Literal)
  | newParamValue (type : TypeRef) (value : Attribute)
  | newCatalogued (index : Fin catalog.length) (resultTypes : List TypeRef)
      (operands : List Value)
  | materialize (dialect : Identifier) (point : InsertionPoint) (value : Attribute)
      (type : TypeRef) (location : Location)
  -- Where objects are.
  | link (l : Level) (x : Handle l.node) (place : Place l)
  | unlink (l : Level) (x : Handle l.node)
  | insert (point : InsertionPoint) (op : OpRef)
  | erase (op : OpRef)
  -- What operations say.
  | setAttribute (op : OpRef) (key : String) (value : Attribute)
  | setLocation (op : OpRef) (location : Location)
  -- Types, operations and dialects.
  | requestType (type : IRType)
  | registerKind (kind : OpKind) (dialect : Dialect)
  | install (dialect : Dialect)
  | registerBuiltin
  | registerHw
  | registerArc

/-- What a call gives back. -/
inductive Answer where
  | done
  | object (x : Object)
  /-- The operation of a constant, if one was made. -/
  | constant (op : Option OpRef)
  | type (ty : TypeRef)
  | dialect (d : Dialect)

namespace Call

/-! ## Making a call -/

def edited (ctx : Context) : Except Fault Context → Context × Except Fault Answer
  | .ok ctx' => (ctx', .ok .done)
  | .error fault => (ctx, .error fault)

def made (ctx : Context) : Except Fault (OpRef × Context) → Context × Except Fault Answer
  | .ok (op, ctx') => (ctx', .ok (.object (.operation op)))
  | .error fault => (ctx, .error fault)

def registered (ctx : Context) (outcome : Registry × Report Unit) :
    Context × Except Fault Answer :=
  ({ ctx with registry := outcome.1 }, outcome.2.result.map fun _ => .done)

def run (ctx : Context) : Call → Context × Except Fault Answer
  | newBlock label argumentTypes =>
    let (b, ctx) := ctx.newBlock label argumentTypes
    (ctx, .ok (.object (.block b)))
  | newOperation id resultTypes operands regionCount =>
    made ctx (.ok (ctx.newOperation id resultTypes operands regionCount))
  | newModule name => made ctx (ctx.newModule name)
  | newHwModule name declarations => made ctx (ctx.newHwModule name declarations)
  | newConstant type literalType literal =>
    made ctx (.ok (ctx.newConstant type literalType literal))
  | newParamValue type value => made ctx (.ok (ctx.newParamValue type value))
  | newCatalogued index resultTypes operands =>
    made ctx (ctx.newCatalogued index resultTypes operands)
  | materialize dialect point value type location =>
    let m := ctx.materialize dialect point value type location
    (m.context, m.outcome.result.map .constant)
  | link l x place => edited ctx (ctx.link l x place)
  | unlink l x =>
    match ctx.unlink l x with
    | .ok ctx => (ctx, .ok .done)
    -- The links are taken from the node before they are looked at.
    | .error fault => (ctx.modifyLinks l x fun _ => {}, .error fault)
  | insert point op => edited ctx (point.insert ctx op)
  | erase op => edited ctx (ctx.erase op)
  | setAttribute op key value => edited ctx (ctx.setAttribute op key value)
  | setLocation op location => edited ctx (ctx.setLocation op location)
  | requestType type =>
    let (ty, types) := ctx.types.request type
    ({ ctx with types }, .ok (.type ty))
  | registerKind kind dialect =>
    let (known, result) := kind.register ctx.registry.known dialect
    ({ ctx with registry := { ctx.registry with known } }, result.map .dialect)
  | install dialect => ({ ctx with registry := ctx.registry.install dialect }, .ok .done)
  | registerBuiltin => registered ctx ctx.registry.registerBuiltin
  | registerHw => registered ctx ctx.registry.registerHw
  | registerArc => registered ctx ctx.registry.registerArc

/-! ## Types that a call names -/

/-- The types among the arguments of a call. -/
def typeRefs : Call → List TypeRef
  | newBlock _ argumentTypes => argumentTypes
  | newOperation _ resultTypes _ _ => resultTypes
  | newHwModule _ declarations => Attribute.typeRefsAll (declarations.map ParamDecl.toAttribute)
  | newConstant type literalType _ => [type, literalType]
  | newParamValue type value => type :: value.typeRefs
  | newCatalogued _ resultTypes _ => resultTypes
  | materialize _ _ value type _ => type :: value.typeRefs
  | setAttribute _ _ value => value.typeRefs
  | requestType type => type.typeRefs
  | newModule _ | link .. | unlink .. | insert .. | erase _ | setLocation .. | registerKind ..
  | install _ | registerBuiltin | registerHw | registerArc => []

end Call

/-! ## Whole sessions -/

/-- A context after calls were made on it. -/
def Context.after (ctx : Context) : List Call → Context
  | [] => ctx
  | call :: calls => (call.run ctx).1.after calls

/-- The contexts that come about by calls. -/
inductive Context.Reachable : Context → Prop where
  | empty {hash : Digest → UInt64} : Reachable (.empty hash)
  | call {ctx : Context} (call : Call) :
      Reachable ctx → (∀ ty ∈ call.typeRefs, ctx.types.Has ty) → Reachable (call.run ctx).1

end HardwareIR
