import Cordyceps.Foundations.Regex
import Cordyceps.Foundations.Utf8

/-!
# Upgrade requests

`transport/auth.ts` and the `upgrade` handler of `startTransport`: which requests become a
WebSocket session. The URL class of the platform is a parameter. Node.js gives each of the
headers read here as one string, without line breaks, if the request has it.
-/

namespace Cordyceps.Transport

open Foundations

structure UpgradeRequest where
  url : Option JsString
  host : Option JsString
  origin : Option JsString
  authorization : Option JsString

/-- What is read of a `URL`. -/
structure Address where
  pathname : JsString
  hostname : JsString
  searchParams : List (JsString × JsString)

namespace Address

/-- `url.searchParams.get(name)`. -/
def param (name : JsString) (address : Address) : Option JsString :=
  (address.searchParams.find? fun entry ↦ entry.1 == name).map Prod.snd

end Address

/-- `new URL(input, base)`; `none` where the constructor throws. -/
abbrev UrlClass := JsString → Option JsString → Option Address

/-- The base of request URLs. -/
def baseUrl : JsString := js "http://127.0.0.1"

/-- `Buffer.alloc(size)` with the bytes copied into it. -/
def padTo (size : ℕ) (bytes : List UInt8) : List UInt8 :=
  bytes ++ List.replicate (size - bytes.length) 0

def constantTimeStringEqual (first second : JsString) : Bool :=
  let firstBuf := JsString.utf8 first
  let secondBuf := JsString.utf8 second
  let size := max firstBuf.length secondBuf.length
  padTo size firstBuf == padTo size secondBuf && firstBuf.length == secondBuf.length

/-- `/^[Bb]earer\s+(.+)$/`. -/
def bearerPattern : Regex :=
  Regex.cat [.lineStart false, .single (CodeUnit.among "Bb"), Regex.literal "earer", Regex.spaces,
    .group 1 (Regex.repeated1 true CodeUnit.isDot), .lineEnd false]

/-- The token in the `Authorization` header is the expected one. -/
def headerTokenMatches (authorization : Option JsString) (expected : JsString) : Bool :=
  match authorization with
  | none => false
  | some authHeader =>
    match bearerPattern.exec authHeader with
    | none => false
    | some found => constantTimeStringEqual (found.text 1).trim expected

/-- The token in the query string is the expected one. -/
def queryTokenMatches (url : UrlClass) (requestUrl : Option JsString) (expected : JsString) :
    Bool :=
  match url (requestUrl.getD (js "/")) (some baseUrl) with
  | none => false
  | some address =>
    match address.param (js "token") with
    | none => false
    | some queryToken => !queryToken.isEmpty && constantTimeStringEqual queryToken expected

def verifyUpgradeToken (url : UrlClass) (request : UpgradeRequest) (expected : JsString) : Bool :=
  !expected.isEmpty &&
    (headerTokenMatches request.authorization expected ||
      queryTokenMatches url request.url expected)

/-- `/:\d+$/`. -/
def portPattern : Regex := Regex.cat [Regex.literal ":", Regex.digits, .lineEnd false]

/-- `/^\[(.+)\]$/`. -/
def bracketPattern : Regex :=
  Regex.cat [.lineStart false, Regex.literal "[", .group 1 (Regex.repeated1 true CodeUnit.isDot),
    Regex.literal "]", .lineEnd false]

/-- The hostname in a `Host` header. A letter that is not ASCII has no letter of a loopback name
as its lower case. -/
def hostnameOf (host : Option JsString) : JsString :=
  bracketPattern.replaceFirstBy (Match.text 1)
    (portPattern.replaceFirst [] (JsString.toLowerCase (host.getD [])))

def isLoopbackName (hostname : JsString) : Bool :=
  hostname == js "127.0.0.1" || hostname == js "localhost" || hostname == js "::1"

def isLoopbackUpgrade (url : UrlClass) (request : UpgradeRequest) : Bool :=
  isLoopbackName (hostnameOf request.host) &&
    match request.origin with
    | none => true
    | some origin =>
      if origin == js "null" then true
      else
        match url origin none with
        | none => false
        | some address => isLoopbackName (JsString.toLowerCase address.hostname)

/-- What becomes of an upgrade request. `thrown` is an exception out of the handler. -/
inductive UpgradeAnswer
  | opened
  | notFound
  | forbidden
  | unauthorized
  | thrown
  deriving DecidableEq, Repr

/-- The `upgrade` handler. -/
def onUpgrade (url : UrlClass) (token : JsString) (request : UpgradeRequest) : UpgradeAnswer :=
  match url (request.url.getD (js "/")) (some baseUrl) with
  | none => .thrown
  | some address =>
    if address.pathname != js "/rpc" then .notFound
    else if !isLoopbackUpgrade url request then .forbidden
    else if !verifyUpgradeToken url request token then .unauthorized
    else .opened

end Cordyceps.Transport
