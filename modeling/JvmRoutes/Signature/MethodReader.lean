import JvmRoutes.Signature.TypeReader

/-! The reader of the type of a method. -/
namespace JvmRoutes.Signature

/-- Where the reader stands inside the type of a method, and what it has read before. -/
inductive OpenMethod
  | start
  | typeParameter (before : List TypeParameter) (name : String)
  | boundStart (before : List TypeParameter) (name : String)
  | classBound (before : List TypeParameter) (name : String) (s : OpenType)
  | interfaceBound (before : List TypeParameter) (p : TypeParameter) (s : OpenType)
  | boundEnd (before : List TypeParameter) (p : TypeParameter)
  | listStart (typeParameters : Option (List TypeParameter))
  | parameterStart (typeParameters : Option (List TypeParameter)) (before : List JavaType)
  | parameter (typeParameters : Option (List TypeParameter)) (before : List JavaType)
    (s : OpenType)
  | result (typeParameters : Option (List TypeParameter)) (parameters : List JavaType)
    (s : OpenType)
  | complete (m : MethodSignature)
  | thrown (m : MethodSignature) (s : OpenType)
  deriving Repr

namespace OpenMethod

/-- Puts a type into the place it is read for, which is left when the type is complete. -/
def place (reading : OpenType → OpenMethod) (complete : JavaType → OpenMethod) :
    TypeProgress → OpenMethod
  | .reading s => reading s
  | .complete t => complete t

def ofClassBound (before : List TypeParameter) (name : String) : TypeProgress → OpenMethod :=
  place (classBound before name) fun t => boundEnd before { name, classBound := some t }

def ofInterfaceBound (before : List TypeParameter) (p : TypeParameter) :
    TypeProgress → OpenMethod :=
  place (interfaceBound before p) fun t =>
    boundEnd before { p with interfaceBounds := p.interfaceBounds ++ [t] }

def ofParameter (typeParameters : Option (List TypeParameter)) (before : List JavaType) :
    TypeProgress → OpenMethod :=
  place (parameter typeParameters before) fun t => parameterStart typeParameters (before ++ [t])

def ofResult (typeParameters : Option (List TypeParameter)) (parameters : List JavaType) :
    TypeProgress → OpenMethod :=
  place (result typeParameters parameters) fun t =>
    complete { typeParameters, parameters, result := t }

def ofThrown (m : MethodSignature) : TypeProgress → OpenMethod :=
  place (thrown m) fun t => complete { m with thrown := m.thrown ++ [t] }

def step : OpenMethod → Char → Except Reason OpenMethod
  | start, c =>
    if c = '<' then .ok (typeParameter [] "")
    else if c = '(' then .ok (parameterStart none [])
    else .error (.character '(')
  | typeParameter before name, c =>
    if c = ':' then if name = "" then .error .identifier else .ok (boundStart before name)
    else if c = '>' && name = "" then .ok (listStart (some before))
    else .ok (typeParameter before (name.push c))
  | boundStart before name, c =>
    if c = ':' then .ok (interfaceBound before { name } ⟨[], .referenceStart⟩)
    else if c = '>' then .ok (listStart (some (before ++ [{ name }])))
    else (stepReference [] c).map (ofClassBound before name)
  | classBound before name s, c => (s.step c).map (ofClassBound before name)
  | interfaceBound before p s, c => (s.step c).map (ofInterfaceBound before p)
  | boundEnd before p, c =>
    if c = ':' then .ok (interfaceBound before p ⟨[], .referenceStart⟩)
    else if c = '>' then .ok (listStart (some (before ++ [p])))
    else .ok (typeParameter (before ++ [p]) (String.singleton c))
  | listStart typeParameters, c =>
    if c = '(' then .ok (parameterStart typeParameters []) else .error (.character '(')
  | parameterStart typeParameters before, c =>
    if c = ')' then .ok (result typeParameters before ⟨[], .typeStart true⟩)
    else (stepType [] false c).map (ofParameter typeParameters before)
  | parameter typeParameters before s, c => (s.step c).map (ofParameter typeParameters before)
  | result typeParameters parameters s, c => (s.step c).map (ofResult typeParameters parameters)
  | complete m, c => if c = '^' then .ok (thrown m ⟨[], .referenceStart⟩) else .error .trailing
  | thrown m s, c => (s.step c).map (ofThrown m)

/-- What the text amounts to if it ends here, or why it may not. -/
def finish : OpenMethod → Except Reason MethodSignature
  | start | listStart _ => .error (.character '(')
  | typeParameter _ name => .error (if name = "" then .openTypeParameters else .character ':')
  | boundStart _ _ | boundEnd _ _ => .error .openTypeParameters
  | parameterStart _ _ => .error .openParameters
  | classBound _ _ s | interfaceBound _ _ s | parameter _ _ s | result _ _ s | thrown _ s =>
    .error s.missing
  | complete m => .ok m

end OpenMethod

def methodReader : Reader OpenMethod MethodSignature where
  start := .start
  step := OpenMethod.step
  finish := OpenMethod.finish

def MethodSignature.parse (text : String) : Except Malformed MethodSignature := methodReader.read text

/-- The generic signature, which says more, or the descriptor when it is missing or empty. -/
def preferred (descriptor : String) : Option String → String
  | none | some "" => descriptor
  | some signature => signature

end JvmRoutes.Signature
