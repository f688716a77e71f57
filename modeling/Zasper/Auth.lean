import Zasper.Http
import Zasper.Structs

/-!
# Authentication

The middleware that lets requests with a token through, and the login that gives
tokens out. How a token is parsed and how one is signed are parameters.
-/
namespace Zasper.Auth
open Zasper.Maps Zasper.JsonValues Zasper.JsonText Zasper.Strings Zasper.Structs Zasper.Http
set_option linter.unusedSimpArgs false

abbrev Claims := Dict String Value

/-- What the middleware does with a request. -/
inductive Gate where
  | passed (userID : String)
  | rejected (text : String)
  /-- The user's id is no text. -/
  | panicked
deriving DecidableEq

def bearer : String := "Bearer "

/-- `parse` gives the claims of a token that is signed with the server's secret. -/
def jwtAuthMiddleware (parse : String → Option Claims) (r : Request) : Gate :=
  let authHeader := r.header "Authorization"
  if authHeader.utf8ByteSize < 8 || !hasPrefix authHeader bearer then
    .rejected "Missing or invalid Authorization header"
  else
    match parse (String.ofList (authHeader.toList.drop 7)) with
    | none => .rejected "Invalid token"
    | some claims =>
      match (claims.get? "user_id").map Value.json with
      | none | some .null => .rejected "Invalid token claims"
      | some (.str userID) => .passed userID
      | some _ => .panicked

/-- The request carries a token that parses. -/
def CarriesToken (parse : String → Option Claims) (r : Request) : Prop :=
  ∃ token, (parse token).isSome ∧ (r.header "Authorization").toList = bearer.toList ++ token.toList

structure Credentials where
  accessToken : String
deriving DecidableEq

def credentials : Codec Credentials := struct ⟨""⟩
  [ field "accessToken" text (·.accessToken) (fun s v => { s with accessToken := v }) ]

inductive Login where
  | failed (status : Nat) (text : String)
  | loggedIn (token redirectPath : String)
deriving DecidableEq

/-- Every user is looked up as the user of the server. -/
def userID : String := "1"
def role : String := "user"

/-- The claims of a new token, but for the time when it expires. -/
def newClaims : List (String × Json) := [("user_id",.str userID),("role",.str role)]

def loginHandler (sign : List (String × Json) → Option String) (serverAccessToken : String) (body : List UInt8) : Login :=
  match credentials.decodeStream body credentials.zero with
  | (_,some _) => .failed 400 "Invalid request"
  | (creds,none) =>
    if creds.accessToken ≠ serverAccessToken then .failed 401 "Invalid credentials"
    else
      match sign newClaims with
      | none => .failed 500 "Could not generate token"
      | some token => .loggedIn token "/"

/-- The body presents the server's access token. -/
def PresentsAccessToken (serverAccessToken : String) (body : List UInt8) : Prop :=
  ∃ creds, credentials.decodeStream body credentials.zero = (creds,none) ∧ creds.accessToken = serverAccessToken

/-- Without a token nothing passes. -/
theorem rejects {parse : String → Option Claims} {r : Request} (anonymous : ¬ CarriesToken parse r) :
    ∃ text, jwtAuthMiddleware parse r = .rejected text := by
  unfold jwtAuthMiddleware
  dsimp only
  split_ifs with malformed
  · exact ⟨_,rfl⟩
  · cases parsed : parse (String.ofList ((r.header "Authorization").toList.drop 7)) with
    | none => exact ⟨_,rfl⟩
    | some claims =>
      refine absurd ⟨_,by rw [parsed]; rfl,?_⟩ anonymous
      have starts : hasPrefix (r.header "Authorization") bearer = true := by
        by_contra other
        exact malformed (by simp [other])
      obtain ⟨token,split⟩ := hasPrefix_iff.mp starts
      rw [← split,String.toList_ofList]
      rfl

end Zasper.Auth
