import ElmIntake.Entry.Codec
import ElmIntake.Syntax.Tree

/-! # Stored entries

    The module that came of a content, as it is kept on disk: with the version
    of the format and the digest of the content, as bytes. -/

namespace ElmIntake

namespace Codec

/-- Places. -/
def span : Codec Span :=
  (pair word (pair word (pair word word))).via
    (fun s => (s.start, s.stop, s.line, s.column))
    (fun (start, stop, line, column) => ⟨start, stop, line, column⟩)

/-- Something with its place. -/
def located {α : Type} (c : Codec α) : Codec (Located α) :=
  (pair c span).via (fun l => (l.node, l.span)) (fun (node, span) => ⟨node, span⟩)

/-- Identifiers. -/
def name : Codec Name := located text

/-- Names of modules, with their places. -/
def moduleName : Codec (Located ModuleName) :=
  located ((list text).via ModuleName.segments ModuleName.mk)

/-- Kinds of modules. -/
def moduleKind : Codec ModuleKind := variants [single .normal, single .port, single .effect]

/-- Items of exposing lists. -/
def exposedItem : Codec ExposedItem :=
  variants
    [variant text (fun | .value s => some s | _ => none) .value,
     variant text (fun | .operator s => some s | _ => none) .operator,
     variant (pair text bool) (fun | .type s o => some (s, o) | _ => none)
       (fun (s, o) => .type s o)]

/-- Exposing lists. -/
def exposing : Codec Exposing :=
  variants
    [variant span (fun | .all s => some s | _ => none) .all,
     variant (list (located exposedItem)) (fun | .listed items => some items | _ => none) .listed]

/-- Headers. -/
def header : Codec ModuleHeader :=
  (pair moduleKind (pair moduleName (pair exposing (pair bool span)))).via
    (fun h => (h.kind, h.name, h.exposing, h.isImplicit, h.span))
    (fun (kind, name, exposing, isImplicit, span) => ⟨kind, name, exposing, isImplicit, span⟩)

/-- Imports. -/
def import_ : Codec Import :=
  (pair moduleName (pair (option name) (pair (option exposing) span))).via
    (fun i => (i.moduleName, i.asName, i.exposing, i.span))
    (fun (moduleName, asName, exposing, span) => ⟨moduleName, asName, exposing, span⟩)

/-- Signatures. -/
def signature : Codec Signature :=
  (pair name (pair text span)).via (fun s => (s.name, s.annotation, s.span))
    (fun (name, annotation, span) => ⟨name, annotation, span⟩)

/-- Definitions. -/
def valueDeclaration : Codec ValueDeclaration :=
  (pair (option (located text)) (pair (option signature) (pair name
    (pair (list (located text)) (pair span span))))).via
    (fun d => (d.documentation, d.signature, d.name, d.arguments, d.body, d.span))
    (fun (documentation, signature, name, arguments, body, span) =>
      ⟨documentation, signature, name, arguments, body, span⟩)

/-- Type aliases. -/
def aliasDeclaration : Codec AliasDeclaration :=
  (pair (option (located text)) (pair name (pair (list name) (pair text span)))).via
    (fun d => (d.documentation, d.name, d.parameters, d.annotation, d.span))
    (fun (documentation, name, parameters, annotation, span) =>
      ⟨documentation, name, parameters, annotation, span⟩)

/-- Constructors. -/
def constructor : Codec Constructor :=
  (pair name (pair (list text) span)).via (fun c => (c.name, c.arguments, c.span))
    (fun (name, arguments, span) => ⟨name, arguments, span⟩)

/-- Custom types. -/
def typeDeclaration : Codec TypeDeclaration :=
  (pair (option (located text)) (pair name (pair (list name)
    (pair (list constructor) span)))).via
    (fun d => (d.documentation, d.name, d.parameters, d.constructors, d.span))
    (fun (documentation, name, parameters, constructors, span) =>
      ⟨documentation, name, parameters, constructors, span⟩)

/-- Ports. -/
def portDeclaration : Codec PortDeclaration :=
  (pair name (pair text span)).via (fun d => (d.name, d.annotation, d.span))
    (fun (name, annotation, span) => ⟨name, annotation, span⟩)

/-- Associativities. -/
def associativity : Codec Associativity := variants [single .left, single .right, single .non]

/-- Fixities. -/
def operatorDeclaration : Codec OperatorDeclaration :=
  (pair associativity (pair byte (pair name (pair name span)))).via
    (fun d => (d.associativity, d.precedence, d.operator, d.function, d.span))
    (fun (associativity, precedence, operator, function, span) =>
      ⟨associativity, precedence, operator, function, span⟩)

/-- Declarations. -/
def declaration : Codec Declaration :=
  variants
    [variant valueDeclaration (fun | .value d => some d | _ => none) .value,
     variant aliasDeclaration (fun | .synonym d => some d | _ => none) .synonym,
     variant typeDeclaration (fun | .type d => some d | _ => none) .type,
     variant portDeclaration (fun | .port d => some d | _ => none) .port,
     variant operatorDeclaration (fun | .operator d => some d | _ => none) .operator]

/-- Modules. -/
def tree : Codec Module :=
  (pair header (pair (option (located text)) (pair (list import_)
    (pair (list declaration) span)))).via
    (fun m => (m.header, m.documentation, m.imports, m.declarations, m.span))
    (fun (header, documentation, imports, declarations, span) =>
      ⟨header, documentation, imports, declarations, span⟩)

end Codec

/-- A module with the digest of the content that it came from. -/
structure Entry where
  version : UInt32
  contentHash : String
  tree : Module
  deriving Repr, DecidableEq

namespace Entry

/-- The version of the format. Entries of any other version are not used. -/
def currentVersion : UInt32 := 1

/-- An entry of the current version. -/
def of (contentHash : String) (tree : Module) : Entry := ⟨currentVersion, contentHash, tree⟩

/-- How entries are written. -/
def codec : Codec Entry :=
  (Codec.pair .word (.pair .text .tree)).via (fun e => (e.version, e.contentHash, e.tree))
    (fun (version, contentHash, tree) => ⟨version, contentHash, tree⟩)

/-- The bytes of an entry. -/
def toBytes (e : Entry) : Bytes := codec.encode e

/-- The entry at the front of some bytes; whatever follows is ignored. -/
def ofBytes (bytes : Bytes) : Except DecodeFault Entry := (codec.decode bytes).map (·.1)

end Entry

end ElmIntake
