/-
# Amend.Database.Address: where a database is and how to reach it

The address of a Postgres database is written in one of two forms: as a URL, which begins with
`postgres://` or `postgresql://`, or as settings, `keyword=value` with white space between them. The
empty text is an address without any setting. Both forms come down to a list of settings, each with a
keyword that exists and a value that it allows.
-/
import Amend.Json.Scanner
import Amend.Text.Classes

namespace Amend.Database

/-- The keyword of a setting and its value. -/
abbrev Setting := String × String

/-! ## Values -/

/-- A whole number between bounds, with or without a sign. -/
def isNumber (least greatest : Int) (cs : List Char) : Bool :=
  let (negative, ds) := match cs with
    | '+' :: ds => (false, ds)
    | '-' :: ds => (true, ds)
    | ds => (false, ds)
  let size : Int := Numeral.digitsValue ds
  let n := if negative then -size else size
  !ds.isEmpty && ds.all Char.isDigit && !(negative && least == 0) && least ≤ n && n ≤ greatest

/-- A text cut at every comma, or at every other given character. -/
def cutAt (mark : Char) (cs : List Char) : List (List Char) :=
  cs.foldr (fun c parts =>
    match parts with
    | [] => []
    | p :: ps => if c = mark then [] :: p :: ps else (c :: p) :: ps) [[]]

/-- A network address of four numbers. -/
def isAddress4 (cs : List Char) : Bool :=
  let parts := cutAt '.' cs
  parts.length == 4 && parts.all fun p =>
    p.length ≤ 3 && isNumber 0 255 p && p.all Char.isDigit && !(p.length != 1 && p.head? == some '0')

/-- How many groups of sixteen bits a text writes; an address of four numbers may stand for the last
two of them if `mixed` allows it. -/
def groups? (mixed : Bool) : List (List Char) → Option Nat
  | [] => some 0
  | [g] =>
    if !g.isEmpty && g.length ≤ 4 && g.all fun c => (Json.hexDigit? c).isSome then some 1
    else if mixed && isAddress4 g then some 2
    else none
  | g :: gs =>
    if !g.isEmpty && g.length ≤ 4 && g.all fun c => (Json.hexDigit? c).isSome then
      (groups? mixed gs).map (· + 1)
    else none

/-- A text cut at the first double colon. -/
def cutAtGap : List Char → Option (List Char × List Char)
  | [] => none
  | ':' :: ':' :: cs => some ([], cs)
  | c :: cs => (cutAtGap cs).map fun (front, back) => (c :: front, back)

/-- The parts between colons; an empty text has none. -/
def colonParts (cs : List Char) : List (List Char) := if cs.isEmpty then [] else cutAt ':' cs

/-- A network address of eight groups, of which a row of zeros may be left out. -/
def isAddress6 (cs : List Char) : Bool :=
  match cutAtGap cs with
  | none => groups? true (colonParts cs) == some 8
  | some (front, back) =>
    match groups? false (colonParts front), groups? true (colonParts back) with
    | some m, some n => m + n ≤ 7
    | _, _ => false

/-- A signed word. -/
def isSeconds (cs : List Char) : Bool := isNumber (-2 ^ 63) (2 ^ 63 - 1) cs

/-- Whether a keyword exists and allows a value. -/
def allows (keyword : String) (value : List Char) : Bool :=
  let among (words : List String) : Bool := words.contains (String.ofList value)
  match keyword with
  | "user" | "password" | "dbname" | "options" | "application_name" | "host" => true
  | "sslmode" => among ["disable", "prefer", "require"]
  | "sslnegotiation" => among ["postgres", "direct"]
  | "hostaddr" => (cutAt ',' value).all fun a => isAddress4 a || isAddress6 a
  | "port" => (cutAt ',' value).all fun p => p.isEmpty || isNumber 0 65535 p
  | "connect_timeout" | "tcp_user_timeout" | "keepalives_idle" | "keepalives_interval" =>
    isSeconds value
  | "keepalives" => isNumber 0 (2 ^ 64 - 1) value
  | "keepalives_retries" => isNumber 0 (2 ^ 32 - 1) value
  | "target_session_attrs" => among ["any", "read-write", "read-only"]
  | "channel_binding" => among ["disable", "prefer", "require"]
  | "load_balance_hosts" => among ["disable", "random"]
  | _ => false

/-- A setting that is allowed. -/
def setting? (keyword : String) (value : List Char) : Option Setting :=
  if allows keyword value then some (keyword, .ofList value) else none

/-! ## Settings -/

/-- A value in quotes, read from behind the first one; a backslash takes the next character as it is. -/
def quotedValue : List Char → Option (List Char × List Char)
  | [] => none
  | '\x27' :: cs => some ([], cs)
  | ['\\'] => none
  | '\\' :: c :: cs => (quotedValue cs).map fun (v, rest) => (c :: v, rest)
  | c :: cs => (quotedValue cs).map fun (v, rest) => (c :: v, rest)

/-- A value without quotes, up to the next white space. -/
def plainValue : List Char → List Char × List Char
  | [] => ([], [])
  | ['\\'] => ([], [])
  | '\\' :: c :: cs => let (v, rest) := plainValue cs; (c :: v, rest)
  | c :: cs =>
    if Text.isBlank c then ([], c :: cs) else let (v, rest) := plainValue cs; (c :: v, rest)

/-- The value of a setting. -/
def settingValue : List Char → Option (List Char × List Char)
  | '\x27' :: cs => quotedValue cs
  | cs =>
    match plainValue cs with
    | ([], _) => none
    | found => some found

/-- The settings of a text; a text that goes on with an equals sign has none further. The first
argument bounds their number. -/
def settings? : Nat → List Char → Option (List Setting)
  | 0, _ => none
  | fuel + 1, cs =>
    match (cs.dropWhile Text.isBlank).span fun c => !Text.isBlank c && c != '=' with
    | ([], _) => some []
    | (keyword, rest) =>
      match rest.dropWhile Text.isBlank with
      | '=' :: rest => do
        let (value, rest) ← settingValue (rest.dropWhile Text.isBlank)
        let s ← setting? (.ofList keyword) value
        return s :: (← settings? fuel rest)
      | _ => none

/-! ## URLs -/

/-- Bytes of a text in which a percent sign and two hexadecimal digits stand for a byte. -/
def percentBytes : List Char → List UInt8
  | [] => []
  | '%' :: a :: b :: cs =>
    match Json.hexDigit? a, Json.hexDigit? b with
    | some m, some n => UInt8.ofNat (m * 16 + n) :: percentBytes cs
    | _, _ => '%'.toString.toUTF8.data.toList ++ percentBytes (a :: b :: cs)
  | c :: cs => c.toString.toUTF8.data.toList ++ percentBytes cs

/-- A text whose percent signs have been read, if its bytes are a text. -/
def decoded? (cs : List Char) : Option String := String.fromUTF8? ⟨(percentBytes cs).toArray⟩

/-- The setting of one host of a URL; a path of a local host need not be a text. -/
def hostSetting? (cs : List Char) : Option Setting :=
  match percentBytes cs with
  | 0x2F :: _ => some ("host", (decoded? cs).getD "")
  | _ => (decoded? cs).map ("host", ·)

/-- A host and its port, between the commas of a URL. -/
def hostAndPort? (cs : List Char) : Option (List Setting) := do
  let (host, port) ← match cs with
    | '[' :: cs =>
      match cs.span (· != ']') with
      | (host, [_]) => some (host, none)
      | (host, _ :: ':' :: port) => some (host, some port)
      | _ => none
    | cs =>
      match cs.span (· != ':') with
      | (host, _ :: port) => some (host, some port)
      | (host, []) => some (host, none)
  let h ← hostSetting? host
  let p ← setting? "port" (← decoded? (port.getD "5432".toList)).toList
  return [h, p]

/-- The parameters of a URL; the first argument bounds their number. -/
def parameters? : Nat → List Char → Option (List Setting)
  | 0, _ => none
  | _ + 1, [] => some []
  | fuel + 1, cs => do
    let (key, _ :: rest) := cs.span (· != '=') | none
    let (value, rest) := rest.span (· != '&')
    let key ← decoded? key
    let s ← if key = "host" then hostSetting? value else do setting? key (← decoded? value).toList
    return s :: (← parameters? fuel (rest.drop 1))

/-- The settings of a URL, read from behind its scheme. -/
def urlSettings? (cs : List Char) : Option (List Setting) := do
  let (user, cs) := match cs.span (· != '@') with
    | (user, _ :: rest) => (user, rest)
    | (all, []) => ([], all)
  let user ← setting? "user" (← decoded? (user.takeWhile (· != ':'))).toList
  let (hosts, cs) := cs.span fun c => c != '/' && c != '?'
  let hosts ← (if hosts.isEmpty then [] else cutAt ',' hosts).mapM hostAndPort?
  let (name, cs) := match cs with
    | '/' :: cs => cs.span (· != '?')
    | cs => ([], cs)
  let name ← setting? "dbname" (← decoded? name).toList
  let parameters ← parameters? (cs.length + 1) (cs.drop 1)
  return user :: hosts.flatten ++ name :: parameters

/-! ## Addresses -/

/-- The text behind one of the schemes. -/
def behindScheme? (cs : List Char) : Option (List Char) :=
  (Json.expect "postgres://".toList cs).orElse fun _ => Json.expect "postgresql://".toList cs

/-- The settings of an address. -/
def parse? (s : String) : Option (List Setting) :=
  match behindScheme? s.toList with
  | some rest => urlSettings? rest
  | none => settings? (s.length + 1) s.toList

end Amend.Database
