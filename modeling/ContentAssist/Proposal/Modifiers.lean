/-! The access flags of class files, with bits of their own for deprecated elements and records. -/

namespace ContentAssist

structure Modifiers where
  bits : UInt32 := 0
deriving DecidableEq, Repr

namespace Modifiers

def publicBit : Modifiers := ⟨0x1⟩
def privateBit : Modifiers := ⟨0x2⟩
def protectedBit : Modifiers := ⟨0x4⟩
def staticBit : Modifiers := ⟨0x8⟩
def finalBit : Modifiers := ⟨0x10⟩
def interfaceBit : Modifiers := ⟨0x200⟩
def abstractBit : Modifiers := ⟨0x400⟩
def annotationBit : Modifiers := ⟨0x2000⟩
def enumBit : Modifiers := ⟨0x4000⟩
def deprecatedBit : Modifiers := ⟨0x100000⟩
def recordBit : Modifiers := ⟨0x1000000⟩

def union (left right : Modifiers) : Modifiers :=
  ⟨left.bits ||| right.bits⟩

instance : Union Modifiers := ⟨union⟩

def contains (modifiers other : Modifiers) : Bool :=
  modifiers.bits &&& other.bits == other.bits

def isStatic (modifiers : Modifiers) : Bool := modifiers.contains staticBit
def isFinal (modifiers : Modifiers) : Bool := modifiers.contains finalBit
def isInterface (modifiers : Modifiers) : Bool := modifiers.contains interfaceBit
def isEnum (modifiers : Modifiers) : Bool := modifiers.contains enumBit
def isDeprecated (modifiers : Modifiers) : Bool := modifiers.contains deprecatedBit
def isRecord (modifiers : Modifiers) : Bool := modifiers.contains recordBit

end Modifiers

end ContentAssist
