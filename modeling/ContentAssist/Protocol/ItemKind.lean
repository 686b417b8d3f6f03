import ContentAssist.Proposal.Kind
import ContentAssist.Proposal.Modifiers

/-! The item kinds of the editor protocol. It leaves room for others, so any code is a kind. -/

namespace ContentAssist

structure ItemKind where
  code : Int32
deriving DecidableEq, Repr

namespace ItemKind

def text : ItemKind := ⟨1⟩
def method : ItemKind := ⟨2⟩
def constructor : ItemKind := ⟨4⟩
def field : ItemKind := ⟨5⟩
def localVariable : ItemKind := ⟨6⟩
def classType : ItemKind := ⟨7⟩
def interfaceType : ItemKind := ⟨8⟩
def moduleName : ItemKind := ⟨9⟩
def property : ItemKind := ⟨10⟩
def enumType : ItemKind := ⟨13⟩
def keyword : ItemKind := ⟨14⟩
def snippet : ItemKind := ⟨15⟩
def reference : ItemKind := ⟨18⟩
def enumMember : ItemKind := ⟨20⟩
def constant : ItemKind := ⟨21⟩
def structType : ItemKind := ⟨22⟩

def supported : List ItemKind :=
  [constructor, classType, constant, interfaceType, enumType, enumMember, moduleName, field,
   keyword, reference, localVariable, method, text, snippet, property, structType]

def isSupported (kind : ItemKind) : Bool :=
  supported.contains kind

def isCallable (kind : ItemKind) : Bool :=
  kind == method || kind == constructor

def ofType (modifiers : Modifiers) : ItemKind :=
  if modifiers.isInterface then interfaceType
  else if modifiers.isEnum then enumType
  else if modifiers.isRecord then structType
  else classType

def ofField (modifiers : Modifiers) : ItemKind :=
  if modifiers.isEnum then enumMember
  else if modifiers.isStatic && modifiers.isFinal then constant
  else field

def ofProposal (kind : Kind) (modifiers : Modifiers) : ItemKind :=
  match kind with
  | .anonymousClassConstructorInvocation | .constructorInvocation => constructor
  | .anonymousClassDeclaration | .typeRef => ofType modifiers
  | .fieldImport | .methodImport | .packageRef | .typeImport | .moduleDeclaration
  | .moduleRef => moduleName
  | .fieldRef => ofField modifiers
  | .fieldRefWithCastedReceiver => field
  | .keyword => keyword
  | .labelRef => reference
  | .localVariableRef | .variableDeclaration => localVariable
  | .methodDeclaration | .methodRef | .methodRefWithCastedReceiver | .methodNameReference
  | .potentialMethodDeclaration | .lambdaExpression => method
  | .annotationAttributeRef => property
  | .javadocBlockTag | .javadocFieldRef | .javadocInlineTag | .javadocMethodRef
  | .javadocParamRef | .javadocTypeRef | .javadocValueRef => text

theorem isSupported_ofProposal (kind : Kind) (modifiers : Modifiers) :
    (ofProposal kind modifiers).isSupported := by
  cases kind with
  | anonymousClassDeclaration | typeRef =>
      simp only [ofProposal, ofType]
      split
      · decide
      · split
        · decide
        · split <;> decide
  | fieldRef =>
      simp only [ofProposal, ofField]
      split
      · decide
      · split <;> decide
  | _ => rfl

theorem isCallable_ofProposal (kind : Kind) (modifiers : Modifiers) :
    (ofProposal kind modifiers).isCallable = (ofProposal kind {}).isCallable := by
  cases kind with
  | anonymousClassDeclaration | typeRef =>
      simp only [ofProposal, ofType]
      split
      · decide
      · split
        · decide
        · split <;> decide
  | fieldRef =>
      simp only [ofProposal, ofField]
      split
      · decide
      · split <;> decide
  | _ => rfl

end ItemKind

end ContentAssist
