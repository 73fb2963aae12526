import ChapterLayout.Text.Quoted

/-! # Hosts in brackets

The authority of a link may name its host in brackets, which then has to be an IPv6 address or an
address of a future version. `Host.checkAddress` tells what is wrong with such a host, and
`Host.checkBracketed` also looks at what stands around the brackets. -/

namespace ChapterLayout

/-- What is wrong with the authority of a link. -/
inductive AuthorityError where
  /-- An opening or a closing bracket has no partner. -/
  | unpairedBracket
  /-- Something other than a port stands beside the brackets around the host. -/
  | misplacedBracket
  /-- The host in brackets is no address. -/
  | notAnAddress (host : Text)
  /-- The host in brackets is an IPv4 address. -/
  | bracketedIPv4
  /-- The host in brackets is no address of a future version, although it starts like one. -/
  | badFutureAddress
  /-- A character of the authority stands for one that ends an authority. -/
  | ambiguousCharacter (authority : Text)
  deriving DecidableEq, Repr

namespace AuthorityError

/-- The error's text. -/
def message : AuthorityError → Text
  | unpairedBracket | misplacedBracket => "Invalid IPv6 URL".toList
  | notAnAddress host =>
    Text.quoted host ++ " does not appear to be an IPv4 or IPv6 address".toList
  | bracketedIPv4 => "An IPv4 address cannot be in brackets".toList
  | badFutureAddress => "IPvFuture address is invalid".toList
  | ambiguousCharacter authority =>
    "netloc '".toList ++ authority ++
      "' contains invalid characters under NFKC normalization".toList

end AuthorityError

namespace Host

/-- The digits of hexadecimal numbers. -/
def isHexadecimal (c : Char) : Bool :=
  c.isDigit || ('a' ≤ c && c ≤ 'f') || ('A' ≤ c && c ≤ 'F')

/-- A part of an IPv4 address: a number up to 255 without leading zeros. -/
def isOctet (s : Text) : Bool :=
  !s.isEmpty && s.all Char.isDigit && decide (s.length ≤ 3) &&
    (s == ['0'] || s.head? != some '0') &&
    decide (s.foldl (fun n c => n * 10 + (c.toNat - 48)) 0 ≤ 255)

/-- Whether the text is an IPv4 address. -/
def isIPv4 (s : Text) : Bool :=
  let octets := Text.splitOn '.' s
  octets.length == 4 && octets.all isOctet

/-- A part of an IPv6 address: up to four hexadecimal digits. -/
def isHextet (s : Text) : Bool := !s.isEmpty && decide (s.length ≤ 4) && s.all isHexadecimal

/-- The parts between the colons, where an IPv4 address at the end counts as two. -/
def hextets? (s : Text) : Option (List Text) :=
  let parts := Text.splitOn ':' s
  match parts.getLast? with
  | some last =>
    if last.contains '.' then
      if isIPv4 last && 3 ≤ parts.length then some (parts.dropLast ++ [['0'], ['0']]) else none
    else if 3 ≤ parts.length then some parts
    else none
  | none => none

/-- The parts around the double colon, if there is exactly one empty part other than the outer
ones. -/
def aroundGap? (parts : List Text) : Option (List Text × List Text) :=
  let inner := (parts.drop 1).dropLast
  if (inner.filter (·.isEmpty)).length == 1 then
    let high := (inner.takeWhile fun s => !s.isEmpty).length + 1
    some (parts.take high, parts.drop (high + 1))
  else none

/-- The parts on one side of the double colon, of which an empty one may only stand alone at the
outer end. -/
def side? (outer : Option Text) (parts : List Text) : Option (List Text) :=
  if outer == some [] then (if parts.length == 1 then some [] else none) else some parts

/-- Whether parts form the address of eight hextets, of which a double colon stands for one or
more. -/
def areHextets (parts : List Text) : Bool :=
  let inner := (parts.drop 1).dropLast
  if 9 < parts.length then false
  else if inner.any (·.isEmpty) then
    match aroundGap? parts with
    | none => false
    | some (high, low) =>
      match side? high.head? high, side? low.getLast? low with
      | some high, some low =>
        decide (high.length + low.length ≤ 7) && high.all isHextet && low.all isHextet
      | _, _ => false
  else parts.length == 8 && parts.all isHextet

/-- The address without its zone, if the zone is well formed. -/
def dropZone? (s : Text) : Option Text :=
  match Text.splitAtFirst ['%'] s with
  | none => some s
  | some (address, zone) => if zone.isEmpty || zone.contains '%' then none else some address

/-- Whether the text is an IPv6 address, perhaps with a zone. -/
def isIPv6 (s : Text) : Bool :=
  match (dropZone? s).bind hextets? with
  | some parts => areHextets parts
  | none => false

/-- Whether the text is an address of a future version: its version in hexadecimal after a `v`, a
point, and more. -/
def isFuture (s : Text) : Bool :=
  let version := (s.drop 1).takeWhile isHexadecimal
  match s.drop (1 + version.length) with
  | '.' :: address => !version.isEmpty && !address.isEmpty && !address.contains '\n'
  | _ => false

/-! ## The host of an authority -/

/-- What is wrong with the host that stands in brackets. -/
def checkAddress (host : Text) : Except AuthorityError Unit :=
  if host.head? == some 'v' then
    if isFuture host then .ok () else .error .badFutureAddress
  else if isIPv4 host then .error .bracketedIPv4
  else if isIPv6 host then .ok ()
  else .error (.notAnAddress host)

/-- The host and the port of an authority: what follows its last at sign. -/
def hostAndPort (authority : Text) : Text := (authority.reverse.takeWhile (· != '@')).reverse

/-- What is wrong with an authority that has brackets. Its host begins with the first of them, and
only a port may follow the closing one. Brackets before the at sign do not count, so that the host
may have none, but it has to be an address nevertheless. -/
def checkBracketed (authority : Text) : Except AuthorityError Unit :=
  match Text.splitAtFirst ['['] (hostAndPort authority) with
  | none => checkAddress ((hostAndPort authority).takeWhile (· != ':'))
  | some (_ :: _, _) => .error .misplacedBracket
  | some ([], inside) =>
    match Text.splitAtFirst [']'] inside with
    | none => checkAddress inside
    | some (host, port) =>
      if port.isEmpty || port.head? == some ':' then checkAddress host
      else .error .misplacedBracket

end Host

end ChapterLayout
