import FunctionWorker.Text.Split

/-!
Targets of requests. A target names an authority and, behind it, a path and a query. What is no
target is refused for its first fault: a character that may not stand where it stands, or an
authority that makes no sense.
-/

namespace FunctionWorker

inductive TargetFault where
  | tooLong
  | character
  | authority
  | noAuthority
  deriving DecidableEq, Repr

def TargetFault.message : TargetFault → String
  | .tooLong => "uri too long"
  | .character => "invalid uri character"
  | .authority => "invalid authority"
  | .noAuthority => "invalid format"

structure Target where
  authority : String
  path : String
  query : Option String
  deriving DecidableEq, Repr

namespace Target

def maxLength : Nat := 65534

/-- Whether a character ends the authority. -/
def endsAuthority (c : Char) : Bool := c = '/' || c = '?' || c = '#'

/-- Whether a character without a role of its own may stand in an authority. -/
def isAuthorityChar (c : Char) : Bool := c.isAlphanum || "!$&'()*+,-.;=_~".toList.contains c

def isPathChar (c : Char) : Bool :=
  0x80 ≤ c.toNat || c.isAlphanum || "!\"$%&'()*+,-./:;=@[\\]^_\x7b|\x7d~".toList.contains c

def isQueryChar (c : Char) : Bool :=
  0x80 ≤ c.toNat || c.isAlphanum || "!$%&'()*+,-./:;=?@[\\]^_`\x7b|\x7d~".toList.contains c

/-- What was seen of an authority: the colons of a port, brackets, and percent signs outside of
the user's name. -/
structure Seen where
  colons : Nat
  opened : Bool
  closed : Bool
  percent : Bool
  deriving DecidableEq, Repr

/-- The most colons in a row of groups. -/
def maxColons : Nat := 8

/-- Looks at a character of an authority. -/
def Seen.look (s : Seen) (c : Char) : Except TargetFault Seen :=
  if c = ':' then
    if maxColons ≤ s.colons then .error .authority else .ok { s with colons := s.colons + 1 }
  else if c = '[' then
    if s.percent || s.opened then .error .authority else .ok { s with opened := true }
  else if c = ']' then
    if !s.opened || s.closed then .error .authority
    else .ok { s with closed := true, colons := 0, percent := false }
  else if c = '@' then .ok { s with colons := 0, percent := false }
  else if c = '%' then .ok { s with percent := true }
  else if isAuthorityChar c then .ok s
  else .error .character

/-- Checks an authority: its characters one after the other, then the whole. -/
def checkAuthority (cs : List Char) : Except TargetFault Unit := do
  let s ← cs.foldlM Seen.look ⟨0, false, false, false⟩
  if s.opened != s.closed || 1 < s.colons || cs.getLast? = some '@' || s.percent then
    .error .authority

/-- Reads what stands behind an authority. Behind a number sign nothing counts. -/
def parsePath (cs : List Char) : Except TargetFault (List Char × Option (List Char)) := do
  let path := cs.takeWhile fun c => c != '?' && c != '#'
  unless path.all isPathChar do .error .character
  match cs.drop path.length with
  | '?' :: rest =>
    let query := rest.takeWhile (· != '#')
    unless query.all isQueryChar do .error .character
    return (path, some query)
  | _ => return (path, none)

def scheme : String := "http://"

/-- Reads the target whose text follows the sign of the transfer protocol. An empty path is that
of the root. -/
def parse (text : String) : Except TargetFault Target := do
  if maxLength < (scheme ++ text).utf8ByteSize then .error .tooLong
  let authority := text.toList.takeWhile fun c => !endsAuthority c
  checkAuthority authority
  if authority.isEmpty then .error .noAuthority
  let (path, query) ← parsePath (text.toList.drop authority.length)
  return {
    authority := String.ofList authority
    path := if path.isEmpty then "/" else String.ofList path
    query := query.map String.ofList }

end Target

end FunctionWorker
