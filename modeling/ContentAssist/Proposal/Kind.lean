/-! The kinds of proposals in their fixed order, and sets of kinds. -/

namespace ContentAssist

inductive Kind where
  | anonymousClassDeclaration
  | fieldRef
  | keyword
  | labelRef
  | localVariableRef
  | methodRef
  | methodDeclaration
  | packageRef
  | typeRef
  | variableDeclaration
  | potentialMethodDeclaration
  | methodNameReference
  | annotationAttributeRef
  | javadocFieldRef
  | javadocMethodRef
  | javadocTypeRef
  | javadocValueRef
  | javadocParamRef
  | javadocBlockTag
  | javadocInlineTag
  | fieldImport
  | methodImport
  | typeImport
  | methodRefWithCastedReceiver
  | fieldRefWithCastedReceiver
  | constructorInvocation
  | anonymousClassConstructorInvocation
  | moduleRef
  | moduleDeclaration
  | lambdaExpression
deriving DecidableEq, Repr

namespace Kind

def all : List Kind :=
  [anonymousClassDeclaration, fieldRef, keyword, labelRef, localVariableRef, methodRef,
   methodDeclaration, packageRef, typeRef, variableDeclaration, potentialMethodDeclaration,
   methodNameReference, annotationAttributeRef, javadocFieldRef, javadocMethodRef,
   javadocTypeRef, javadocValueRef, javadocParamRef, javadocBlockTag, javadocInlineTag,
   fieldImport, methodImport, typeImport, methodRefWithCastedReceiver,
   fieldRefWithCastedReceiver, constructorInvocation, anonymousClassConstructorInvocation,
   moduleRef, moduleDeclaration, lambdaExpression]

def ordinal (kind : Kind) : Nat :=
  kind.ctorIdx + 1

theorem mem_all (kind : Kind) : kind ∈ all := by
  cases kind <;> decide

theorem ordinals_all : all.map ordinal = (List.range 30).map (· + 1) := by
  decide

theorem ordinal_injective {left right : Kind} (same : left.ordinal = right.ordinal) :
    left = right := by
  revert same
  cases left <;> cases right <;> decide

def isConstructorLike : Kind → Bool
  | constructorInvocation | anonymousClassConstructorInvocation | anonymousClassDeclaration => true
  | _ => false

end Kind

structure KindSet where
  members : List Kind := []

namespace KindSet

def ofList (kinds : List Kind) : KindSet :=
  ⟨kinds⟩

def contains (kinds : KindSet) (kind : Kind) : Bool :=
  kinds.members.contains kind

def insert (kinds : KindSet) (kind : Kind) : KindSet :=
  if kinds.contains kind then kinds else ⟨kind :: kinds.members⟩

def toList (kinds : KindSet) : List Kind :=
  Kind.all.filter kinds.contains

def isEmpty (kinds : KindSet) : Bool :=
  kinds.members.isEmpty

@[simp] theorem contains_empty (kind : Kind) : contains {} kind = false := rfl

@[simp] theorem contains_insert (kinds : KindSet) (added kind : Kind) :
    (kinds.insert added).contains kind = (kind == added || kinds.contains kind) := by
  unfold insert
  split
  next present =>
      by_cases same : kind = added
      · simp [same, present]
      · simp [same]
  next => by_cases same : kind = added <;> simp [contains, same]

@[simp] theorem mem_toList (kinds : KindSet) (kind : Kind) :
    kind ∈ kinds.toList ↔ kinds.contains kind = true := by
  simp [toList, Kind.mem_all]

theorem toList_eq_nil_iff (kinds : KindSet) : kinds.toList = [] ↔ kinds.isEmpty = true := by
  constructor
  · intro none
    cases kinds with
    | mk members =>
        cases members with
        | nil => rfl
        | cons kind members =>
            have listed : kind ∈ toList ⟨kind :: members⟩ :=
              (mem_toList _ _).mpr (by simp [contains])
            rw [none] at listed
            cases listed
  · intro empty
    have none : kinds.members = [] := by simpa [isEmpty] using empty
    simp [toList, contains, none]

end KindSet

end ContentAssist
