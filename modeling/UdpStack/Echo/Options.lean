/-
The command line of the echo exchange. A word that starts with a hyphen is an option, alone it is a
value; a value follows its option in the same word, with or without an equals sign, or is the next
word; and everything behind `--` is an address. An option that needs a value and has none keeps its
default. Words are read from left to right, and only then are the values read and counted.
-/
import UdpStack.Host.Basic

namespace UdpStack.Echo

/-- What the exchange is asked to do. -/
structure Options where
  /-- The address of the device. -/
  host : Ipv4.Address := ⟨10, 0, 0, 1⟩
  /-- The length of the subnet mask, any number of one octet. -/
  prefixLen : Nat := 24
  port : UInt16 := 7
  clientPort : UInt16 := 40000
  /-- The number of datagrams to echo. -/
  count : Nat := 4
  /-- The payload of each datagram, but for its last character. -/
  message : String := "ping"
  /-- Whether hardware addresses are asked for. -/
  arp : Bool := false
  /-- Whether datagrams go over the loopback. -/
  loopback : Bool := false
  deriving DecidableEq, Repr

namespace Options

/-- The address that the client sends to. -/
def server (o : Options) : Ipv4.Address := if o.loopback then .loopback else o.host

/-- The configuration of the host. -/
def config (o : Options) : Config :=
  { Config.create o.host (.netmask (min o.prefixLen 32)) with
    mode := if o.arp then .table else .derived }

end Options

/-- Why a command line is refused, or not answered by an exchange. -/
inductive UsageFault where
  /-- An option that does not exist, or a second address. -/
  | unknownArgument
  /-- A value that does not read as what it stands for. -/
  | valueValidation
  /-- An option that is given twice. -/
  | unexpectedMultipleUsage
  | helpDisplayed
  | versionDisplayed
  deriving DecidableEq, Repr

/-- The name of a cause. -/
def UsageFault.name : UsageFault → String
  | unknownArgument => "UnknownArgument"
  | valueValidation => "ValueValidation"
  | unexpectedMultipleUsage => "UnexpectedMultipleUsage"
  | helpDisplayed => "HelpDisplayed"
  | versionDisplayed => "VersionDisplayed"

/-- What an option sets. -/
inductive Setting where
  | prefixLen
  | port
  | clientPort
  | count
  | message
  | arp
  | loopback
  deriving DecidableEq, Repr

namespace Setting

/-- All settings. -/
def all : List Setting := [prefixLen, port, clientPort, count, message, arp, loopback]

/-- Whether the option has a value. -/
def takesValue : Setting → Bool
  | arp | loopback => false
  | _ => true

/-- The option behind two hyphens. -/
def ofLong? : String → Option Setting
  | "prefix" => some prefixLen
  | "port" => some port
  | "client-port" => some clientPort
  | "count" => some count
  | "message" => some message
  | "arp" => some arp
  | "loopback" => some loopback
  | _ => none

/-- The option behind one hyphen. -/
def ofShort? : Char → Option Setting
  | 'p' => some prefixLen
  | 'n' => some count
  | 'm' => some message
  | _ => none

end Setting

/-! ## Words -/

/-- The words of a command line by what they mean. -/
structure Words where
  /-- Words that are addresses. -/
  hosts : List String := []
  /-- Options in the order in which they were given. -/
  given : List Setting := []
  /-- The values of options. -/
  values : List (Setting × String) := []
  /-- The option whose value is the next word. -/
  awaiting : Option Setting := none

namespace Words

/-- Take a word as an address. There is room for one. -/
def addHost (w : Words) (word : String) : Except UsageFault Words :=
  if w.hosts.isEmpty then .ok { w with hosts := [word] } else .error .unknownArgument

/-- Take an option, with the value that stands in the same word. Equals signs in front of the value
do not belong to it. -/
def addOption (w : Words) (s : Setting) (value : Option (List Char)) : Words :=
  let w := { w with given := w.given ++ [s], awaiting := none }
  if !s.takesValue then w
  else match value with
    | some v => { w with values := w.values ++ [(s, String.ofList (v.dropWhile (· == '=')))] }
    | none => { w with awaiting := some s }

/-- Take a word behind two hyphens. -/
def addLong (w : Words) (word : List Char) : Except UsageFault Words :=
  let body := word.dropWhile (· == '-')
  let name := String.ofList (body.takeWhile (· != '='))
  let value := match body.dropWhile (· != '=') with
    | [] => none
    | _ :: v => some v
  if name = "help" then .error .helpDisplayed
  else if name = "version" then .error .versionDisplayed
  else match Setting.ofLong? name with
    | some s => .ok (w.addOption s value)
    | none => .error .unknownArgument

/-- Take a letter behind one hyphen with the rest of its word. -/
def addShort (w : Words) (letter : Char) (rest : List Char) : Except UsageFault Words :=
  if letter = 'h' then .error .helpDisplayed
  else if letter = 'V' then .error .versionDisplayed
  else match Setting.ofShort? letter with
    | some s => .ok (w.addOption s (if rest.isEmpty then none else some rest))
    | none => .error .unknownArgument

/-- Take one word. -/
def add (w : Words) (word : String) : Except UsageFault Words :=
  match word.toList with
  | '-' :: '-' :: rest => w.addLong rest
  | '-' :: letter :: rest => w.addShort letter rest
  | _ =>
    match w.awaiting with
    | some s => .ok { w with values := w.values ++ [(s, word)], awaiting := none }
    | none => w.addHost word

/-- Take all words of a command line. -/
def addAll (w : Words) : List String → Except UsageFault Words
  | [] => .ok w
  | "--" :: rest => rest.foldlM addHost w
  | word :: rest => (w.add word).bind fun w => w.addAll rest

end Words

/-! ## Values -/

/-- Write a value over an option, none if it does not read as what it stands for. -/
def Options.set? (o : Options) (value : String) : Setting → Option Options
  | .prefixLen => (Text.decimal? UInt8.size value.toList).map fun n => { o with prefixLen := n }
  | .port => (Text.decimal? UInt16.size value.toList).map fun n => { o with port := .ofNat n }
  | .clientPort =>
    (Text.decimal? UInt16.size value.toList).map fun n => { o with clientPort := .ofNat n }
  | .count => (Text.decimal? UInt64.size value.toList).map fun n => { o with count := n }
  | .message => some { o with message := value }
  | .arp => some { o with arp := true }
  | .loopback => some { o with loopback := true }

/-- Take what was given for one setting. An option without a value changes nothing. -/
def Options.take (w : Words) (o : Options) (s : Setting) : Except UsageFault Options :=
  if s ∉ w.given then .ok o
  else
    let values :=
      if s.takesValue then (w.values.filter fun v => v.1 == s).map (·.2) else [""]
    match values.foldl (fun o v => o.bind fun o => o.set? v s) (some o) with
    | none => .error .valueValidation
    | some o => if 1 < w.given.count s then .error .unexpectedMultipleUsage else .ok o

/-- Take the address. -/
def Options.takeHost (w : Words) (o : Options) : Except UsageFault Options :=
  match w.hosts with
  | [] => .ok o
  | word :: _ =>
    match Ipv4.Address.ofText? word with
    | some x => .ok { o with host := x }
    | none => .error .valueValidation

/-- Read a command line. -/
def Options.ofArgs (args : List String) : Except UsageFault Options := do
  let w ← Words.addAll {} args
  let o ← Options.takeHost w {}
  Setting.all.foldlM (Options.take w) o

end UdpStack.Echo
