import AttestationService.Text.Search

/-!
Request targets. A target is a path with an optional query, in either case without its fragment, or
the same after a scheme and an authority, or an authority alone, or an asterisk.
-/

namespace AttestationService.Http

structure Target where
  scheme : Option String
  authority : Option String
  path : String
  query : Option String
  deriving DecidableEq, Repr

namespace Target

def maxLength : Nat := 65534

def isPathChar (c : Char) : Bool :=
  let n := c.toNat
  n == 0x21 || n == 0x22 || (0x24 ≤ n && n ≤ 0x3B) || n == 0x3D || (0x40 ≤ n && n ≤ 0x5F)
    || (0x61 ≤ n && n ≤ 0x7E) || 0x7F ≤ n

def isQueryChar (c : Char) : Bool :=
  let n := c.toNat
  n == 0x21 || (0x24 ≤ n && n ≤ 0x3B) || n == 0x3D || 0x3F ≤ n

def isSchemeChar (c : Char) : Bool :=
  c.isAlphanum || c == '+' || c == '-' || c == '.'

def isAuthorityChar (c : Char) : Bool :=
  c.isAlphanum || ['!', '$', '&', '\x27', '(', ')', '*', '+', ',', '-', '.', ':', ';', '=', '@', '[',
    ']', '_', '~'].contains c

def ofPath? (text : List Char) : Option (String × Option String) :=
  let text := text.takeWhile (· != '#')
  let path := text.takeWhile (· != '?')
  let query := text.dropWhile (· != '?')
  if path.all isPathChar && (query.drop 1).all isQueryChar then
    some (String.ofList path, if query.isEmpty then none else some (String.ofList (query.drop 1)))
  else none

structure AuthorityScan where
  colons : Nat
  percent : Bool
  opened : Bool
  closed : Bool
  afterAt : Bool
  valid : Bool

def AuthorityScan.step (s : AuthorityScan) (c : Char) : AuthorityScan :=
  let s := { s with afterAt := c == '@' }
  if c = ':' then { s with colons := s.colons + 1, valid := s.valid && s.colons < 8 }
  else if c = '[' then { s with opened := true, valid := s.valid && !s.percent && !s.opened }
  else if c = ']' then
    { s with closed := true, colons := 0, percent := false, valid := s.valid && s.opened && !s.closed }
  else if c = '@' then { s with colons := 0, percent := false }
  else if c = '%' then { s with percent := true }
  else { s with valid := s.valid && isAuthorityChar c }

/-- Whether a text can be an authority: user, host and port. Outside brackets and after the user
there is at most one colon and no percent sign. -/
def isAuthority (text : List Char) : Bool :=
  let s := text.foldl AuthorityScan.step ⟨0, false, false, false, false, true⟩
  !text.isEmpty && s.valid && s.opened == s.closed && s.colons ≤ 1 && !s.percent && !s.afterAt

def endsAuthority (c : Char) : Bool := c == '/' || c == '?' || c == '#'

def cutScheme (text : List Char) : Option (String × List Char) :=
  let name := text.takeWhile isSchemeChar
  match text.dropWhile isSchemeChar with
  | ':' :: '/' :: '/' :: rest =>
    if name.isEmpty then none
    else
      let lower := String.ofList (name.map Char.toLower)
      some (if lower = "http" ∨ lower = "https" then lower else String.ofList name, rest)
  | _ => none

def ofText? (text : List Char) : Option Target :=
  if maxLength < (String.ofList text).utf8ByteSize then none
  else
    match text with
    | [] => none
    | ['*'] => some ⟨none, none, "*", none⟩
    | '/' :: _ => (ofPath? text).map fun (path, query) => ⟨none, none, path, query⟩
    | _ =>
      match cutScheme text with
      | none =>
        if isAuthority text then some ⟨none, some (String.ofList text), "", none⟩ else none
      | some (scheme, rest) =>
        let authority := rest.takeWhile (!endsAuthority ·)
        if scheme.length ≤ 64 && isAuthority authority then
          (ofPath? (rest.dropWhile (!endsAuthority ·))).map fun (path, query) =>
            ⟨some scheme, some (String.ofList authority), if path.isEmpty then "/" else path, query⟩
        else none

def text (t : Target) : String :=
  let scheme := match t.scheme with
    | some s => s ++ "://"
    | none => ""
  let query := match t.query with
    | some q => "?" ++ q
    | none => ""
  scheme ++ t.authority.getD "" ++ t.path ++ query

end Target

end AttestationService.Http
