import AttestationService.Yaml.Node
import AttestationService.Yaml.Tokens

/-!
From tokens to nodes. Each function reads one construct and gives back what follows it; what has
no token of its own is null. Names of anchors hold within their document, and an alias stands for
the node that last took the name.
-/

namespace AttestationService.Yaml

structure Reader where
  rest : List Token
  handles : List (String × String)
  anchors : List (String × Nat)
  nodes : List (Nat × Node)
  count : Nat

namespace Reader

def next (r : Reader) : Token := r.rest.head?.getD .streamEnd

def skip (r : Reader) : Reader := { r with rest := r.rest.tail }

def register (name : String) (r : Reader) : Nat × Reader :=
  (r.count + 1, { r with anchors := (name, r.count + 1) :: r.anchors, count := r.count + 1 })

def complete (anchor : Option Nat) (node : Node) (r : Reader) : Reader :=
  match anchor with
  | some n => { r with nodes := (n, node) :: r.nodes }
  | none => r

/-- A tag with its handle's prefix. A handle of its own has to be declared. -/
def resolve (handle suffix : String) (r : Reader) : Option (String × String) :=
  let local_ := handle.isEmpty && suffix == "!"
  match r.handles.lookup (if local_ then "" else handle) with
  | some namePrefix => some (namePrefix, suffix)
  | none =>
    if handle = "!!" then some ("tag:yaml.org,2002:", suffix)
    else if 2 ≤ handle.length ∧ handle.startsWith "!" ∧ handle.endsWith "!" then none
    else some (handle, suffix)

structure Properties where
  anchor : Option Nat
  tag : Option (String × String)

def takeTag (handle suffix : String) (r : Reader) : Option ((String × String) × Reader) :=
  (r.resolve handle suffix).map (·, r.skip)

def properties (r : Reader) : Option (Properties × Reader) :=
  match r.next with
  | .anchor name =>
    let (n, r) := r.skip.register name
    match r.next with
    | .tag handle suffix => (takeTag handle suffix r).map fun (tag, r) => (⟨some n, some tag⟩, r)
    | _ => some (⟨some n, none⟩, r)
  | .tag handle suffix =>
    match takeTag handle suffix r with
    | none => none
    | some (tag, r) =>
      match r.next with
      | .anchor name =>
        let (n, r) := r.skip.register name
        some (⟨some n, some tag⟩, r)
      | _ => some (⟨none, some tag⟩, r)
  | _ => some (⟨none, none⟩, r)

/-- What a scalar says. Only a plain one can be anything but text. -/
def scalarNode (tag : Option (String × String)) (plain : Bool) (text : String) : Node :=
  if !plain then .string text
  else
    match tag with
    | some (handle, suffix) => .ofTagged handle suffix text
    | none => .ofPlain text.toList

mutual

/-- A node. Block collections may stand here if `inBlock`, and a sequence without indentation of
its own if `loose`. -/
def node (fuel : Nat) (inBlock loose : Bool) (r : Reader) : Option (Node × Reader) :=
  match fuel with
  | 0 => none
  | fuel + 1 =>
    match r.next with
    | .alias name =>
      match r.anchors.lookup name with
      | some n => some ((r.nodes.lookup n).getD .unusable, r.skip)
      | none => none
    | _ =>
      match r.properties with
      | none => none
      | some (properties, r) =>
        let sequence (items : Option (List Node × Reader)) : Option (Node × Reader) :=
          items.map fun (items, r) => (.sequence items, r.complete properties.anchor (.sequence items))
        let mapping (members : Option (List Node × Reader)) : Option (Node × Reader) :=
          match members with
          | none => none
          | some (members, r) =>
            (Node.pairUp [] none members).map fun pairs =>
              (.mapping pairs, r.complete properties.anchor (.mapping pairs))
        match r.next with
        | .scalar plain text =>
          let n := scalarNode properties.tag plain text
          some (n, r.skip.complete properties.anchor n)
        | .flowSequenceStart => sequence (flowItems fuel true r.skip)
        | .flowMappingStart => mapping (flowMembers fuel true r.skip)
        | .blockSequenceStart => if inBlock then sequence (blockItems fuel r.skip) else none
        | .blockMappingStart => if inBlock then mapping (blockKeys fuel r.skip) else none
        | other =>
          if loose ∧ other = .dash then sequence (looseItems fuel r)
          else if properties.tag.isSome ∨ properties.anchor.isSome then
            let n := scalarNode properties.tag true ""
            some (n, r.complete properties.anchor n)
          else none

def blockItems (fuel : Nat) (r : Reader) : Option (List Node × Reader) :=
  match fuel with
  | 0 => none
  | fuel + 1 =>
    match r.next with
    | .blockEnd => some ([], r.skip)
    | .dash =>
      match r.skip.next with
      | .dash | .blockEnd => (blockItems fuel r.skip).map fun (rest, r) => (.null :: rest, r)
      | _ =>
        match node fuel true false r.skip with
        | none => none
        | some (n, r) => (blockItems fuel r).map fun (rest, r) => (n :: rest, r)
    | _ => none

def looseItems (fuel : Nat) (r : Reader) : Option (List Node × Reader) :=
  match fuel with
  | 0 => none
  | fuel + 1 =>
    match r.next with
    | .dash =>
      match r.skip.next with
      | .dash | .key | .value | .blockEnd =>
        (looseItems fuel r.skip).map fun (rest, r) => (.null :: rest, r)
      | _ =>
        match node fuel true false r.skip with
        | none => none
        | some (n, r) => (looseItems fuel r).map fun (rest, r) => (n :: rest, r)
    | _ => some ([], r)

def blockKeys (fuel : Nat) (r : Reader) : Option (List Node × Reader) :=
  match fuel with
  | 0 => none
  | fuel + 1 =>
    match r.next with
    | .blockEnd => some ([], r.skip)
    | .value => (blockValues fuel r).map fun (rest, r) => (.null :: rest, r)
    | .key =>
      match r.skip.next with
      | .key | .value | .blockEnd => (blockValues fuel r.skip).map fun (rest, r) => (.null :: rest, r)
      | _ =>
        match node fuel true true r.skip with
        | none => none
        | some (n, r) => (blockValues fuel r).map fun (rest, r) => (n :: rest, r)
    | _ => none

def blockValues (fuel : Nat) (r : Reader) : Option (List Node × Reader) :=
  match fuel with
  | 0 => none
  | fuel + 1 =>
    match r.next with
    | .value =>
      match r.skip.next with
      | .key | .value | .blockEnd => (blockKeys fuel r.skip).map fun (rest, r) => (.null :: rest, r)
      | _ =>
        match node fuel true true r.skip with
        | none => none
        | some (n, r) => (blockKeys fuel r).map fun (rest, r) => (n :: rest, r)
    | _ => (blockKeys fuel r).map fun (rest, r) => (.null :: rest, r)

/-- The entries of a flow sequence, up to its end. An entry that begins with a key is a mapping of
one pair. -/
def flowItems (fuel : Nat) (first : Bool) (r : Reader) : Option (List Node × Reader) :=
  match fuel with
  | 0 => none
  | fuel + 1 =>
    if r.next = .flowSequenceEnd then some ([], r.skip)
    else if !first ∧ r.next ≠ .comma then none
    else
      let r := if first then r else r.skip
      match r.next with
      | .flowSequenceEnd => some ([], r.skip)
      | .key =>
        match flowPair fuel r.skip with
        | none => none
        | some (pair, r) =>
          match Node.pairUp [] none pair with
          | none => none
          | some members =>
            (flowItems fuel false r).map fun (rest, r) => (.mapping members :: rest, r)
      | _ =>
        match node fuel false false r with
        | none => none
        | some (n, r) => (flowItems fuel false r).map fun (rest, r) => (n :: rest, r)

def flowPair (fuel : Nat) (r : Reader) : Option (List Node × Reader) :=
  match fuel with
  | 0 => none
  | fuel + 1 =>
    let key : Option (Node × Reader) :=
      match r.next with
      | .value | .comma | .flowSequenceEnd => some (.null, r.skip)
      | _ => node fuel false false r
    match key with
    | none => none
    | some (key, r) =>
      match r.next with
      | .value =>
        match r.skip.next with
        | .comma | .flowSequenceEnd => some ([key, .null], r.skip)
        | _ => (node fuel false false r.skip).map fun (n, r) => ([key, n], r)
      | _ => some ([key, .null], r)

def flowMembers (fuel : Nat) (first : Bool) (r : Reader) : Option (List Node × Reader) :=
  match fuel with
  | 0 => none
  | fuel + 1 =>
    if r.next = .flowMappingEnd then some ([], r.skip)
    else if !first ∧ r.next ≠ .comma then none
    else
      let r := if first then r else r.skip
      match r.next with
      | .flowMappingEnd => some ([], r.skip)
      | .value => (flowValue fuel r).map fun (rest, r) => (.null :: rest, r)
      | .key =>
        match r.skip.next with
        | .value | .comma | .flowMappingEnd =>
          (flowValue fuel r.skip).map fun (rest, r) => (.null :: rest, r)
        | _ =>
          match node fuel false false r.skip with
          | none => none
          | some (n, r) => (flowValue fuel r).map fun (rest, r) => (n :: rest, r)
      | _ =>
        match node fuel false false r with
        | none => none
        | some (n, r) => (flowMembers fuel false r).map fun (rest, r) => (n :: .null :: rest, r)

def flowValue (fuel : Nat) (r : Reader) : Option (List Node × Reader) :=
  match fuel with
  | 0 => none
  | fuel + 1 =>
    match r.next with
    | .value =>
      match r.skip.next with
      | .comma | .flowMappingEnd => (flowMembers fuel false r.skip).map fun (rest, r) => (.null :: rest, r)
      | _ =>
        match node fuel false false r.skip with
        | none => none
        | some (n, r) => (flowMembers fuel false r).map fun (rest, r) => (n :: rest, r)
    | _ => (flowMembers fuel false r).map fun (rest, r) => (.null :: rest, r)

end

/-- The rules before a document. Only the last one counts, and the version may come once. -/
def rules : Nat → Bool → Reader → Option Reader
  | 0, _, _ => none
  | fuel + 1, versioned, r =>
    match r.next with
    | .versionRule => if versioned then none else rules fuel true { r.skip with handles := [] }
    | .tagRule handle namePrefix =>
      rules fuel versioned { r.skip with handles := [(handle, namePrefix)] }
    | _ => some r

def markedNode (fuel : Nat) (r : Reader) : Option (Node × Reader) :=
  match r.next with
  | .versionRule | .tagRule .. | .documentStart | .documentEnd | .streamEnd => some (.null, r)
  | _ => node fuel true false r

/-- The documents up to the end of the stream. Unless a mark ended the one before, a document needs
a mark to start it. -/
def documents (fuel : Nat) (implicit : Bool) (r : Reader) : Option (List Node) :=
  match fuel with
  | 0 => none
  | fuel + 1 =>
    match r.next with
    | .documentEnd => documents fuel implicit r.skip
    | .streamEnd => some []
    | other =>
      let begun : Option (Node × Reader) :=
        let fresh : Reader := { r with anchors := [], nodes := [] }
        let marked := match other with
          | .versionRule | .tagRule .. | .documentStart => true
          | _ => !implicit
        match rules fuel false fresh with
        | none => none
        | some r =>
          if !marked then node fuel true false r
          else if r.next = .documentStart then markedNode fuel r.skip
          else none
      match begun with
      | none => none
      | some (n, r) =>
        let r := { r with handles := [] }
        let rest : Option (List Node) :=
          match r.next with
          | .documentEnd => documents fuel true r.skip
          | .versionRule | .tagRule .. => none
          | _ => documents fuel false r
        rest.map (n :: ·)

end Reader

def documents? (text : List Char) : Option (List Node) :=
  match tokens? text with
  | none => none
  | some tokens => Reader.documents (3 * tokens.length + 3) true ⟨tokens, [], [], [], 0⟩

end AttestationService.Yaml
