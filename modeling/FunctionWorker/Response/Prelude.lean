import FunctionWorker.Response.Basic

/-!
The prelude of a streamed answer to a web request: status, header fields and cookies, as a
document with eight zero octets behind it. Fields have lowercase names; the field that sets
cookies goes to the cookies, and a text that is no name of a field goes nowhere.
-/

namespace FunctionWorker

open Json (Tree)

/-- What stands in front of a streamed body. -/
structure Prelude where
  status : Nat
  headers : List (String × List String)
  cookies : List String
  deriving DecidableEq, Repr

namespace Prelude

/-- A good answer without header fields. -/
def start : Prelude := ⟨200, [], []⟩

def cookieName : String := "set-cookie"

def values (p : Prelude) (name : String) : List String := (Json.member? name p.headers).getD []

def addHeader (name value : String) (p : Prelude) : Prelude :=
  match Header.name? name with
  | none => p
  | some name =>
    if name = cookieName then { p with cookies := p.cookies ++ [value] }
    else { p with headers := Json.setMember name (p.values name ++ [value]) p.headers }

def removeHeader (name : String) (p : Prelude) : Prelude :=
  match Header.name? name with
  | none => p
  | some name =>
    if name = cookieName then { p with cookies := [] }
    else { p with headers := p.headers.filter fun h => h.1 != name }

/-- Gives a header field this value only. -/
def setHeader (name value : String) (p : Prelude) : Prelude :=
  (p.removeHeader name).addHeader name value

def addCookie (cookie : String) (p : Prelude) : Prelude :=
  { p with cookies := p.cookies ++ [cookie] }

/-- The document of a prelude. The values of a field stand in one text with commas between them,
and a table or a list without entries is left out. -/
def tree (p : Prelude) : Tree :=
  .object <|
    [("statusCode", .atom (toString p.status))] ++
      (if p.headers.isEmpty then []
        else [("headers", .object (p.headers.map fun h => (h.1, .text (",".intercalate h.2))))]) ++
      (if p.cookies.isEmpty then [] else [("cookies", .array (p.cookies.map .text))])

/-- What separates the prelude from the body. -/
def delimiter : Bytes := List.replicate 8 0

def encode (p : Prelude) : Bytes := Bytes.ofText p.tree.compact ++ delimiter

end Prelude

/-- A streamed answer to a web request. -/
structure StreamingResponse where
  head : Prelude
  body : List Signal

namespace StreamingResponse

/-- The type of a body with a prelude in front. -/
def contentType : String := "application/vnd.awslambda.http-integration-response"

def ofSignals (body : List Signal) : StreamingResponse := ⟨.start, body⟩

def ofBytes (bytes : Bytes) : StreamingResponse := ⟨.start, [.item (.ok bytes)]⟩

def status (code : Nat) (r : StreamingResponse) : StreamingResponse :=
  { r with head := { r.head with status := code } }

def header (name value : String) (r : StreamingResponse) : StreamingResponse :=
  { r with head := r.head.addHeader name value }

def cookie (cookie : String) (r : StreamingResponse) : StreamingResponse :=
  { r with head := r.head.addCookie cookie }

/-- The response: the prelude, then the body. -/
def encode (r : StreamingResponse) : Response :=
  ⟨.stream (.item (.ok r.head.encode) :: r.body), some contentType⟩

end StreamingResponse

end FunctionWorker
