import SymbolPaths.Failure
import SymbolPaths.Http.Status
import SymbolPaths.Http.Url

/-!
# Downloads

A file is downloaded from an address by a single request. Whatever goes wrong,
with the address, on the way, or at the server, the download failed, and the
reason says where.
-/

namespace SymbolPaths.Http

/-- What happens to a request. -/
inductive Exchange where
  /-- Nobody answers. -/
  | silence
  /-- An answer with a status code, a body, and the length that it is said to have. -/
  | reply (status : Nat) (body : Bytes) (length : Nat)
  deriving DecidableEq, Repr, Inhabited

/-- The reason for a request that was not answered. -/
def unanswered (u : Url) : String := "error sending request for url (" ++ u.text ++ ")"

/-- What is made of the answer to a request. -/
def receive (u : Url) : Exchange → Except String Bytes
  | .silence => .error (unanswered u)
  | .reply status body length =>
    if status < 100 || 1000 ≤ status || isInterim status then .error (unanswered u)
    else if !isSuccess status then .error ("HTTP " ++ statusText status)
    else if isBodiless status then .ok []
    else if body.length < length then .error "error decoding response body"
    else .ok (body.take length)

/-- Downloads a file from an address, where requests meet with `exchange`. -/
def fetch (address : String) (exchange : Exchange) : Except AcquireError Bytes :=
  let result : Except String Bytes := match Url.parse? address with
    | none => .error "builder error"
    | some u =>
      if u.isWeb then receive u exchange
      else .error ("builder error for url (" ++ u.text ++ ")")
  result.mapError fun reason => .network address reason

/-- The first line of the request for an address. -/
def requestLine (address : String) : Option String :=
  (Url.parse? address).map fun u => "GET " ++ u.target ++ " HTTP/1.1"

end SymbolPaths.Http
