/-
What a server answers to requests other than streams.

* `respond` is the answer to a method and a target.

There is a page at the root, and streams at their own path. A path with empty parts, dots or double dots
leads to its shortest form.
-/
import TapeMachine.Files.Tree
import TapeMachine.Web.Page

namespace TapeMachine.Web

/-- An answer; headers that are not sent are empty. -/
structure Response where
  status : Nat
  contentType : String := ""
  allow : String := ""
  location : Bytes := []
  body : Bytes := []
deriving DecidableEq, Repr

namespace Route

/-- The shortest form of a path; a slash at the end stays. -/
def clean (path : Bytes) : Bytes :=
  let short := FilePath.join path []
  if path.getLast? = some 47 && short ≠ [47] then short ++ [47] else short

/-- The value of a hexadecimal digit. -/
def hexValue? (b : UInt8) : Option UInt8 :=
  if 48 ≤ b && b ≤ 57 then some (b - 48)
  else if 97 ≤ b && b ≤ 102 then some (b - 87)
  else if 65 ≤ b && b ≤ 70 then some (b - 55)
  else none

/-- Reads percent signs with two digits as the bytes that they stand for. -/
def decode? : Bytes → Option Bytes
  | [] => some []
  | 37 :: a :: b :: rest =>
    match hexValue? a, hexValue? b, decode? rest with
    | some a, some b, some rest => some ((a * 16 + b) :: rest)
    | _, _, _ => none
  | c :: rest => if c = 37 then none else (decode? rest).map (c :: ·)

/-- Whether a byte stands for itself in a path that is written anew. -/
def isPathByte (b : UInt8) : Bool :=
  let c := Char.ofNat b.toNat
  c.isAlphanum || "-_.~$&+,/:;=@".contains c

/-- Whether a byte may stand in a path as it was sent. -/
def mayStand (b : UInt8) : Bool :=
  isPathByte b || "!'()*[]%".contains (Char.ofNat b.toNat)

/-- A path with percent signs for bytes that do not stand for themselves. -/
def encode (path : Bytes) : Bytes :=
  path.flatMap fun b => if isPathByte b then [b] else 37 :: utf8 (hexByte b).toUpper

/-- A path as it is compared and led on: as it was sent, or written anew if it has bytes that may not stand
in it. -/
def written (path : Bytes) : Bytes :=
  if path.all mayStand then path else encode ((decode? path).getD path)

/-- A text with percent signs for bytes outside of ASCII. -/
def asciiOnly (text : Bytes) : Bytes :=
  text.flatMap fun b => if b < 128 then [b] else 37 :: utf8 (hexByte b)

/-- A text inside a page. -/
def escapeMarkup (text : Bytes) : Bytes :=
  text.flatMap fun b =>
    if b = 38 then utf8 "&amp;"
    else if b = 60 then utf8 "&lt;"
    else if b = 62 then utf8 "&gt;"
    else if b = 34 then utf8 "&#34;"
    else if b = 39 then utf8 "&#39;"
    else [b]

/-- What there is to visit. -/
inductive Place where
  | page
  | stream
deriving DecidableEq, Repr

/-- The place at a path. -/
def place? (path : Bytes) : Option Place :=
  if path = [47] then some .page
  else
    let part := path.drop 1
    if !part.contains 47 && (decode? part).getD part = utf8 "ws" then some .stream else none

/-- The path of a target, and its query without the question mark. What stands behind a hash sign is not
sent. -/
def splitQuery (target : Bytes) : Bytes × Bytes :=
  let (path, query) := (target.takeWhile (· ≠ 35)).span (· ≠ 63)
  (path, query.drop 1)

end Route

open Route

/-- The type of a page. -/
def htmlType : String := "text/html; charset=utf-8"

/-- The type of a message. -/
def textType : String := "text/plain; charset=utf-8"

/-- Leads to another path. Only a visitor who asks for a page gets one. -/
def redirect (method : String) (location : Bytes) : Response where
  status := 307
  contentType := if method = "GET" || method = "HEAD" then htmlType else ""
  location := asciiOnly location
  body := if method = "GET" then
      utf8 "<a href=\"" ++ escapeMarkup location ++ utf8 "\">Temporary Redirect</a>.\n\n"
    else []

/-- An answer without its body, for a visitor who asks for the headers only. -/
def Response.headersOnly (method : String) (r : Response) : Response :=
  if method = "HEAD" then { r with body := [] } else r

/-- The answer to a request for a path in its shortest form. -/
def respondAt (method : String) (path : Bytes) : Response :=
  match place? path with
  | none => Response.headersOnly method
      { status := 404, contentType := textType, body := utf8 "404 page not found\n" }
  | some place =>
    if method = "GET" || method = "HEAD" then
      match place with
      | .page => Response.headersOnly method { status := 200, contentType := htmlType, body := utf8 page }
      | .stream =>
        if method = "GET" then { status := 400, body := utf8 "not websocket protocol" } else { status := 405 }
    else
      { status := 405, contentType := textType, allow := "GET, HEAD", body := utf8 "Method Not Allowed\n" }

/-- The answer to a plain request: the page, the place of streams, which wants to be visited otherwise, the
shortest form of the path, or a refusal. A request without a method asks for a page, and one for a
connection is never led on. -/
def respond (method : String) (target : Bytes) : Response :=
  let method := if method.isEmpty then "GET" else method
  let (path, query) := splitQuery target
  let path := if path.isEmpty then [47] else written path
  let short := clean path
  if short = path || method = "CONNECT" then respondAt method path
  else redirect method (short ++ if query.isEmpty then [] else 63 :: query)

end TapeMachine.Web
