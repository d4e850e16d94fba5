import WaterController.Core.Config
import WaterController.Library.BoundedText
import WaterController.Library.Text
import WaterController.Nostd.FlashKv

/-!
# Webhook delivery

What the webhook task does with an event: it takes the URL of each subscriber apart, sends
a request with the rendered body, and reads the status of the response.
-/

namespace WaterController

open FlashKv (fromUtf8)

namespace Webhook

/-! ## URLs -/

/-- The pieces of a URL. -/
structure Url where
  https : Bool
  host : String
  port : Nat
  path : String
deriving DecidableEq, Repr

/-- What is behind the scheme. -/
def stripScheme (url : String) : Option (Bool × String) :=
  match Text.stripPrefix url "https://" with
  | some rest => some (true, rest)
  | none => (Text.stripPrefix url "http://").map fun rest => (false, rest)

/-- The authority, and the path behind it. -/
def splitPath (rest : String) : String × String :=
  match rest.toList.dropWhile (· ≠ '/') with
  | [] => (rest, "/")
  | path => (String.ofList (rest.toList.takeWhile (· ≠ '/')), String.ofList path)

/-- The host and the port of an authority. -/
def splitPort (https : Bool) (authority : String) : Option (String × Nat) :=
  match Text.rsplitOnce authority ':' with
  | some (host, port) => (Text.parseUnsigned 65536 port.toList).map fun port => (host, port)
  | none => some (authority, if https then 443 else 80)

def parseUrl (url : String) : Option Url := do
  let (https, rest) ← stripScheme url
  let (authority, path) := splitPath rest
  let (host, port) ← splitPort https authority
  if host.isEmpty then none else some { https, host, port, path }

/-- `parse_ipv4`. -/
def parseIpv4 (s : String) : Option (List Nat) :=
  let parts := s.toList.splitOn '.'
  if parts.length = 4 then parts.mapM (Text.parseUnsigned 256) else none

/-! ## The request -/

/-- `str::eq_ignore_ascii_case`. -/
def sameIgnoringCase (a b : String) : Bool :=
  a.toList.map Char.toLower == b.toList.map Char.toLower

/-- A number in a buffer of 10 bytes, and nothing where it does not fit. -/
def lenBuf (n : Nat) : String :=
  let digits := (toString n).toList
  if textSize digits ≤ 10 then String.ofList digits else ""

/-- The configured headers, as they are sent. -/
def headerLines (headers : List HeaderEntry) : String :=
  headers.foldl (fun req h => req ++ h.name ++ ": " ++ h.value ++ "\r\n") ""

def hasContentType (headers : List HeaderEntry) : Bool :=
  headers.any fun h => sameIgnoringCase h.name "content-type"

def buildRequest (wh : WebhookConfig) (url : Url) (body : String) : String :=
  let method := if sameIgnoringCase wh.method "put" then "PUT" else "POST"
  method ++ " " ++ url.path ++ " HTTP/1.1\r\nHost: " ++ url.host ++ "\r\n" ++
    headerLines wh.headers ++
    (if hasContentType wh.headers then "" else "Content-Type: application/json\r\n") ++
    "Content-Length: " ++ lenBuf body.utf8ByteSize ++ "\r\nConnection: close\r\n\r\n" ++ body

/-! ## The response -/

/-- What comes of a read, which waits for 8 s. -/
inductive Recv where
  | data (bytes : Bytes)
  | failed
  | timeout
deriving DecidableEq, Repr

/-- The status in a text: its second word. -/
def statusIn (line : List Char) : Except String Nat :=
  match (Text.splitWhitespace line)[1]?.bind (Text.parseUnsigned 65536) with
  | none => .error "no status"
  | some status => .ok status

/-- The status in what was read first. -/
def readStatus (recv : Recv) : Except String Nat :=
  match recv with
  | .failed => .error "read"
  | .timeout => .error "timeout"
  | .data bytes =>
      match fromUtf8 bytes with
      | none => .error "non-utf8"
      | some line => statusIn line.toList

/-! ## Delivery -/

/-- What the network does with a delivery, and whether the build has TLS. -/
structure Net where
  tls : Bool
  dns : String → Option (List Nat)
  connect : Bool
  handshake : Bool
  write : Bool
  flush : Bool
  recv : Recv

def resolve (net : Net) (host : String) : Option (List Nat) :=
  match parseIpv4 host with
  | some ip => some ip
  | none => net.dns host

/-- A step of a delivery, or why it failed. -/
def step (ok : Bool) (why : String) : Except String Unit := if ok then .ok () else .error why

def deliverHttps (net : Net) (url : Url) : Except String Nat := do
  step (resolve net url.host).isSome "dns"
  step net.connect "connect"
  step net.handshake "tls handshake"
  step net.write "tls write"
  step net.flush "tls flush"
  readStatus net.recv

def deliver (net : Net) (wh : WebhookConfig) : Except String Nat :=
  match parseUrl wh.url with
  | none => .error "bad url"
  | some url =>
      if url.https then
        if net.tls then deliverHttps net url else .error "https requires the `tls` feature"
      else do
        step (resolve net url.host).isSome "dns"
        step net.connect "connect"
        step net.write "write"
        step net.flush "flush"
        readStatus net.recv

/-- What is logged of a delivery. -/
def report (kind : EventKind) (wh : WebhookConfig) : Except String Nat → String
  | .ok status =>
      if 200 ≤ status ∧ status < 300 then
        "webhook: " ++ kind.asStr ++ " -> " ++ wh.url ++ " OK (" ++ toString status ++ ")"
      else "webhook: " ++ kind.asStr ++ " -> " ++ wh.url ++ " HTTP " ++ toString status
  | .error e => "webhook: " ++ kind.asStr ++ " -> " ++ wh.url ++ " failed: " ++ e

def handleEvent (cfg : Config) (net : WebhookConfig → Net) (event : WebhookEvent) : List String :=
  let subs := cfg.webhooks.filter fun wh => wh.enabled && wh.events.contains event.kind
  if subs.isEmpty then []
  else
    ("webhook: dispatching " ++ event.kind.asStr ++ " to " ++ toString subs.length ++
      " subscriber(s)") :: subs.map fun wh => report event.kind wh (deliver (net wh) wh)

end Webhook

end WaterController
