import Tssh.Framework.Split
import Tssh.Framework.Submatch
import Tssh.Ports.Ranges

/-! # Forwarding Arguments

    `parseForwardArg` in `tssh/forward.go` reads the argument of `-L` and `-R`: an optional bind
    address, a bind port, a destination and its port, between slashes or colons, with IPv6
    addresses in brackets between colons, and with Unix sockets in place of an address and its
    port.  It tries a dozen patterns on one text, and the first one that matches decides.

    * **Model**: the patterns in the order of the source; the regular expressions are those of
      `Submatch`.
    * **Shapes**: `Forwarding` is what an argument can say, and `Forwarding.text` how it is
      written.
    * `parseForwardArg_text`: what is written is read, no pattern in front of the right one
      matches it.
-/

namespace ForwardArg

open Sshd Submatch

/-! ## The code -/

structure ForwardCfg where
  udp : Bool
  argument : Text
  /-- `none` is the nil pointer. -/
  bindAddr : Option Text
  bindPort : Int
  destHost : Text
  destPort : Int
  deriving DecidableEq, Repr

inductive ForwardError where
  /-- `invalid forwarding specification [%s]: %v`, with the error of `ParseUint` for the port. -/
  | badPort (str port : Text)
  /-- `invalid forwarding specification: %s`. -/
  | invalid (str : Text)
  deriving DecidableEq, Repr

/-- The class of the regular expressions for IPv6 addresses: colons and hexadecimal digits. -/
def isIPv6Char (c : Char) : Bool :=
  c = ':' || c.isDigit || ('a' ≤ c && c ≤ 'f') || ('A' ≤ c && c ≤ 'F')

/-- `[^:]`. -/
def notColon (c : Char) : Bool := c ≠ ':'

/-- `.`. -/
def notNewline (c : Char) : Bool := c ≠ '\n'

def portOnlyRegexp : List (Item Char) := [.group Char.isDigit]

def doubleIPv6Regexp : List (Item Char) :=
  [.lit '[', .group isIPv6Char, .lit ']', .lit ':', .group Char.isDigit, .lit ':', .lit '[',
    .group isIPv6Char, .lit ']', .lit ':', .group Char.isDigit]

def firstIPv6Regexp : List (Item Char) :=
  [.lit '[', .group isIPv6Char, .lit ']', .lit ':', .group Char.isDigit, .lit ':',
    .group notColon, .lit ':', .group Char.isDigit]

def secondIPv6Regexp : List (Item Char) :=
  [.optional notColon, .lit ':', .group Char.isDigit, .lit ':', .lit '[', .group isIPv6Char,
    .lit ']', .lit ':', .group Char.isDigit]

def middleIPv6Regexp : List (Item Char) :=
  [.group Char.isDigit, .lit ':', .lit '[', .group isIPv6Char, .lit ']', .lit ':',
    .group Char.isDigit]

/-- The expression has no group, and its submatches are not used. -/
def unixSocketRegexp : List (Item Char) := [.lit '/', .group notNewline]

/-- `MatchString`. -/
def isPortOnly (s : Text) : Bool := (find portOnlyRegexp s).isSome
def isUnixSocket (s : Text) : Bool := (find unixSocketRegexp s).isSome

def isUdpPrefix : Text → Bool
  | c0 :: c1 :: c2 :: c3 :: _ =>
    (c0 = 'u' || c0 = 'U') && (c1 = 'd' || c1 = 'D') && (c2 = 'p' || c2 = 'P') &&
      (c3 = '/' || c3 = ':' || c3 = '-' || c3 = '_')
  | _ => false

/-- The arguments of `newForwardCfg`; its ports are pointers as well. -/
structure CfgArgs where
  bindAddr : Option Text
  bindPort : Option Text
  destHost : Text
  destPort : Option Text
  deriving DecidableEq, Repr

def readPort (str : Text) : Option Text → Except ForwardError Int
  | none => .ok (-1)
  | some port =>
    match Ports.parseUint port with
    | some v => .ok v
    | none => .error (.badPort str port)

def newForwardCfg (udp : Bool) (str : Text) (args : CfgArgs) : Except ForwardError ForwardCfg := do
  let bPort ← readPort str args.bindPort
  let dPort ← readPort str args.destPort
  return ⟨udp, str, args.bindAddr, bPort, args.destHost, dPort⟩

/-- The patterns between slashes. -/
def slashArgs (val : Text) : Option CfgArgs :=
  match val.splitOn '/' with
  | [t0, t1, t2] =>
    if isPortOnly t0 && isPortOnly t2 then some ⟨none, some t0, t1, some t2⟩ else none
  | [t0, t1, t2, t3] =>
    if isPortOnly t1 && isPortOnly t3 then some ⟨some t0, some t1, t2, some t3⟩ else none
  | _ => none

/-- `len(match) == 5`. -/
def fourGroups : Option (List Text) → Option CfgArgs
  | some [m1, m2, m3, m4] => some ⟨some m1, some m2, m3, some m4⟩
  | _ => none

/-- `len(match) == 4`. -/
def threeGroups : Option (List Text) → Option CfgArgs
  | some [m1, m2, m3] => some ⟨none, some m1, m2, some m3⟩
  | _ => none

/-- The regular expressions with IPv6 addresses. -/
def ipv6Args (val : Text) : Option CfgArgs :=
  ((fourGroups (find doubleIPv6Regexp val)).or (fourGroups (find firstIPv6Regexp val))).or
    ((fourGroups (find secondIPv6Regexp val)).or (threeGroups (find middleIPv6Regexp val)))

/-- The patterns between colons.  Those with one number of tokens are together, in their order. -/
def colonArgs (val : Text) : Option CfgArgs :=
  match val.splitOn ':' with
  | [t0, t1, t2] =>
    if isPortOnly t0 && isPortOnly t2 then some ⟨none, some t0, t1, some t2⟩
    else if isPortOnly t1 && isUnixSocket t2 then some ⟨some t0, some t1, t2, none⟩
    else if isPortOnly t2 && isUnixSocket t0 then some ⟨some t0, none, t1, some t2⟩
    else none
  | [t0, t1, t2, t3] =>
    if isPortOnly t1 && isPortOnly t3 then some ⟨some t0, some t1, t2, some t3⟩ else none
  | [t0, t1] =>
    if isPortOnly t0 && isUnixSocket t1 then some ⟨none, some t0, t1, none⟩
    else if isUnixSocket t0 && isUnixSocket t1 then some ⟨some t0, none, t1, none⟩
    else none
  | _ => none

def forwardArgs (val : Text) : Option CfgArgs :=
  (slashArgs val).or ((ipv6Args val).or (colonArgs val))

def parseForwardArg (str : Text) : Except ForwardError ForwardCfg :=
  let str := trimSpace str
  let udp := isUdpPrefix str
  let val := if udp then str.drop 4 else str
  match forwardArgs val with
  | some args => newForwardCfg udp str args
  | none => .error (.invalid str)

/-! ## Shapes of arguments -/

/-- A host name, which may be numeric. -/
structure Host where
  text : Text
  ne_nil : text ≠ []
  plain : ∀ c ∈ text, c ∉ [':', '/', '[', ']'] ∧ isSpace c = false

/-- An IPv6 address in hexadecimal notation. -/
structure IPv6 where
  text : Text
  ne_nil : text ≠ []
  chars : ∀ c ∈ text, isIPv6Char c = true

/-- A Unix socket, with the text behind its slash. -/
structure UnixPath where
  name : Text
  ne_nil : name ≠ []
  plain : ∀ c ∈ name, c ≠ ':' ∧ isSpace c = false
  /-- Its first component is not all digits. -/
  component : isPortOnly (name.takeWhile (· ≠ '/')) = false

def UnixPath.text (p : UnixPath) : Text := '/' :: p.name

inductive BindAddr where
  | absent
  | empty
  | host (h : Host)
  | ipv6 (a : IPv6)

inductive Bind where
  | listen (addr : BindAddr) (port : UInt16)
  | unix (path : UnixPath)

inductive Dest where
  | host (h : Host) (port : UInt16)
  | ipv6 (a : IPv6) (port : UInt16)
  | unix (path : UnixPath)

/-- A Unix socket on one side and an IPv6 address on the other. -/
def Mixed : Bind → Dest → Prop
  | .unix _, .ipv6 _ _ => True
  | .listen (.ipv6 _) _, .unix _ => True
  | _, _ => False

/-- What an argument says. -/
structure Forwarding where
  bind : Bind
  dest : Dest
  supported : ¬ Mixed bind dest

def Forwarding.hasPath (f : Forwarding) : Prop :=
  (∃ path, f.bind = .unix path) ∨ ∃ path, f.dest = .unix path

/-! ### Components -/

def portText (port : UInt16) : Text := Nat.toDigits 10 port.toNat

@[simp] def BindAddr.text : BindAddr → Option Text
  | .absent => none
  | .empty => some []
  | .host h => some h.text
  | .ipv6 a => some a.text

@[simp] def Bind.addr : Bind → Option Text
  | .listen addr _ => addr.text
  | .unix path => some path.text

def Bind.portValue : Bind → Int
  | .listen _ port => port.toNat
  | .unix _ => -1

@[simp] def Bind.portToken : Bind → Option Text
  | .listen _ port => some (portText port)
  | .unix _ => none

@[simp] def Dest.hostText : Dest → Text
  | .host h _ => h.text
  | .ipv6 a _ => a.text
  | .unix path => path.text

@[simp] def Dest.portToken : Dest → Option Text
  | .host _ port => some (portText port)
  | .ipv6 _ port => some (portText port)
  | .unix _ => none

def Dest.portValue : Dest → Int
  | .host _ port => port.toNat
  | .ipv6 _ port => port.toNat
  | .unix _ => -1

/-! ### Texts -/

inductive Form where
  | colon
  | slash
  deriving DecidableEq

def Form.separator : Form → Char
  | .colon => ':'
  | .slash => '/'

def Form.ipv6 : Form → IPv6 → Text
  | .colon, a => '[' :: (a.text ++ [']'])
  | .slash, a => a.text

@[simp] def BindAddr.tokens (form : Form) : BindAddr → List Text
  | .absent => []
  | .empty => [[]]
  | .host h => [h.text]
  | .ipv6 a => [form.ipv6 a]

@[simp] def Bind.tokens (form : Form) : Bind → List Text
  | .listen addr port => addr.tokens form ++ [portText port]
  | .unix path => [path.text]

@[simp] def Dest.tokens (form : Form) : Dest → List Text
  | .host h port => [h.text, portText port]
  | .ipv6 a port => [form.ipv6 a, portText port]
  | .unix path => [path.text]

/-- The argument without a prefix. -/
def Forwarding.text (f : Forwarding) (form : Form) : Text :=
  [form.separator].intercalate (f.bind.tokens form ++ f.dest.tokens form)

/-- A prefix `udp/` in any case and with any of the separators. -/
structure UdpPrefix where
  u : Char
  d : Char
  p : Char
  separator : Char
  letters : (u = 'u' ∨ u = 'U') ∧ (d = 'd' ∨ d = 'D') ∧ (p = 'p' ∨ p = 'P')
  separates : separator = '/' ∨ separator = ':' ∨ separator = '-' ∨ separator = '_'

def UdpPrefix.text (x : UdpPrefix) : Text := [x.u, x.d, x.p, x.separator]

/-- The argument with an optional prefix. -/
def Forwarding.argument (f : Forwarding) (form : Form) : Option UdpPrefix → Text
  | none => f.text form
  | some x => x.text ++ f.text form

/-- The components as the patterns find them. -/
def Forwarding.args (f : Forwarding) : CfgArgs :=
  ⟨f.bind.addr, f.bind.portToken, f.dest.hostText, f.dest.portToken⟩

/-- The configuration of the components. -/
def Forwarding.cfg (f : Forwarding) (udp : Bool) (argument : Text) : ForwardCfg :=
  ⟨udp, argument, f.bind.addr, f.bind.portValue, f.dest.hostText, f.dest.portValue⟩

/-! ## Tokens -/

theorem isPortOnly_iff (s : Text) :
    isPortOnly s = true ↔ s ≠ [] ∧ ∀ c ∈ s, c.isDigit = true := by
  rw [isPortOnly, Option.isSome_iff_exists]
  constructor
  · intro ⟨caps, h⟩
    obtain ⟨g, t, caps', hne, hg, rfl, ht⟩ := exists_of_find_group h
    have ht : t = [] := by
      cases t with
      | nil => rfl
      | cons c t => cases ht
    rw [ht, List.append_nil]
    exact ⟨hne, hg⟩
  · intro ⟨hne, hs⟩
    exact ⟨[s], find_last_group hne hs⟩

theorem isPortOnly_eq_false {s : Text} {c : Char} (hc : c ∈ s) (hdigit : c.isDigit = false) :
    isPortOnly s = false := by
  rw [← Bool.not_eq_true, isPortOnly_iff]
  intro h
  rw [h.2 c hc] at hdigit
  cases hdigit

theorem portText_ne_nil (port : UInt16) : portText port ≠ [] := Nat.toDigits_ne_nil

theorem isDigit_of_mem_portText {port : UInt16} {c : Char} (hc : c ∈ portText port) :
    c.isDigit = true :=
  Nat.isDigit_of_mem_toDigits (by decide) (by decide) hc

theorem not_mem_portText {c : Char} (hc : c.isDigit = false) (port : UInt16) :
    c ∉ portText port := by
  intro hmem
  rw [isDigit_of_mem_portText hmem] at hc
  cases hc

@[simp] theorem isPortOnly_portText (port : UInt16) : isPortOnly (portText port) = true :=
  (isPortOnly_iff _).mpr ⟨portText_ne_nil port, fun _ => isDigit_of_mem_portText⟩

@[simp] theorem isPortOnly_path (path : UnixPath) : isPortOnly path.text = false :=
  isPortOnly_eq_false (c := '/') List.mem_cons_self (by decide)

@[simp] theorem isUnixSocket_path (path : UnixPath) : isUnixSocket path.text = true := by
  have hname : ∀ c ∈ path.name, notNewline c = true := by
    intro c hc
    have hspace := (path.plain c hc).2
    simp only [notNewline, ne_eq, decide_not, Bool.not_eq_true', decide_eq_false_iff_not]
    rintro rfl
    exact absurd hspace (by decide)
  rw [isUnixSocket, unixSocketRegexp, UnixPath.text, find_lit_self,
    find_last_group path.ne_nil hname]
  rfl

@[simp] theorem isUnixSocket_portText (port : UInt16) : isUnixSocket (portText port) = false := by
  have h : find [.lit '/', .group notNewline] (portText port ++ []) = none :=
    find_lit_append (portText_ne_nil port) (not_mem_portText (by decide) port)
  rw [List.append_nil] at h
  rw [isUnixSocket, unixSocketRegexp, h]
  rfl

theorem readPort_portText (str : Text) (port : UInt16) :
    readPort str (some (portText port)) = .ok port.toNat := by
  have hvalue : Nat.ofDigitChars 10 (portText port) 0 = port.toNat :=
    Nat.ofDigitChars_toDigits (by decide) (by decide)
  have hdigits : (portText port).all Char.isDigit = true :=
    List.all_eq_true.mpr fun _ => isDigit_of_mem_portText
  have hparse : Ports.parseUint (portText port) = some port.toNat := by
    rw [Ports.parseUint, hvalue, if_pos ⟨portText_ne_nil port, hdigits, port.toNat_lt⟩]
  rw [readPort, hparse]

theorem newForwardCfg_args (f : Forwarding) (udp : Bool) (str : Text) :
    newForwardCfg udp str f.args = .ok (f.cfg udp str) := by
  have hbind : readPort str f.bind.portToken = .ok f.bind.portValue := by
    cases f.bind with
    | listen addr port => exact readPort_portText str port
    | unix path => rfl
  have hdest : readPort str f.dest.portToken = .ok f.dest.portValue := by
    cases f.dest with
    | host h port => exact readPort_portText str port
    | ipv6 a port => exact readPort_portText str port
    | unix path => rfl
  rw [newForwardCfg, Forwarding.args, hbind, hdest]
  rfl

/-! ## The regular expressions -/

theorem find_port (port : UInt16) (items : List (Item Char)) (t : Text) :
    find (.group Char.isDigit :: .lit ':' :: items) (portText port ++ ':' :: t) =
      (find items t).map (portText port :: ·) :=
  find_group_lit (by decide) (portText_ne_nil port) fun _ => isDigit_of_mem_portText

theorem find_last_port (port : UInt16) :
    find [.group Char.isDigit] (portText port) = some [portText port] :=
  find_last_group (portText_ne_nil port) fun _ => isDigit_of_mem_portText

theorem find_ipv6 (a : IPv6) (items : List (Item Char)) (t : Text) :
    find (.group isIPv6Char :: .lit ']' :: items) (a.text ++ ']' :: t) =
      (find items t).map (a.text :: ·) :=
  find_group_lit (by decide) a.ne_nil a.chars

theorem notColon_of_not_mem {s : Text} (h : ':' ∉ s) : ∀ c ∈ s, notColon c = true := by
  intro c hc
  simp only [notColon, ne_eq, decide_not, Bool.not_eq_true', decide_eq_false_iff_not]
  rintro rfl
  exact h hc

theorem Host.not_mem (h : Host) {c : Char} (hc : c ∈ [':', '/', '[', ']']) : c ∉ h.text := by
  intro hmem
  exact (h.plain c hmem).1 hc

theorem find_host (h : Host) (items : List (Item Char)) (t : Text) :
    find (.group notColon :: .lit ':' :: items) (h.text ++ ':' :: t) =
      (find items t).map (h.text :: ·) :=
  find_group_lit (by decide) h.ne_nil (notColon_of_not_mem (h.not_mem (by decide)))

/-- The group in front of the first colon, which may be empty. -/
theorem find_optional_colon {g : Text} (hg : ':' ∉ g) (items : List (Item Char)) (t : Text) :
    find (.optional notColon :: .lit ':' :: items) (g ++ ':' :: t) =
      (find items t).map (g :: ·) :=
  find_optional_lit (by decide) (notColon_of_not_mem hg)

/-! ### Expressions that do not match -/

/-- A text that begins with a bracket has a token that does. -/
theorem exists_bracket_token (s : Text) :
    ∃ t ∈ ('[' :: s).splitOn ':', t.head? = some '[' := by
  rw [Split.splitOn_cons, if_neg (by decide)]
  have hne : s.splitOn ':' ≠ [] := Split.splitOn_ne_nil s
  obtain ⟨t, ts, hts⟩ := List.exists_cons_of_ne_nil hne
  rw [hts]
  exact ⟨'[' :: t, List.mem_cons_self, rfl⟩

/-- Tokens without brackets in front match none of the expressions: each has a bracket at the
    beginning or behind a colon. -/
theorem ipv6Args_eq_none {ts : List Text} (hne : ts ≠ []) (hcolon : ∀ t ∈ ts, ':' ∉ t)
    (hbracket : ∀ t ∈ ts, t.head? ≠ some '[') : ipv6Args ([':'].intercalate ts) = none := by
  have hsplit : ([':'].intercalate ts).splitOn ':' = ts := List.splitOn_intercalate ':' hcolon hne
  generalize [':'].intercalate ts = val at hsplit ⊢
  have hfirst : ∀ items : List (Item Char), find (.lit '[' :: items) val = none := by
    intro items
    rw [Option.eq_none_iff_forall_ne_some]
    intro caps h
    obtain ⟨s, rfl, -⟩ := exists_of_find_lit h
    obtain ⟨t, ht, hhead⟩ := exists_bracket_token s
    exact hbracket t (hsplit ▸ ht) hhead
  have hlater : ∀ (g s : Text), val ≠ g ++ ':' :: '[' :: s := by
    intro g s hval
    obtain ⟨t, ht, hhead⟩ := exists_bracket_token s
    rw [hval, List.splitOn, List.splitOnP_append_cons _ _ (by decide)] at hsplit
    exact hbracket t (hsplit ▸ List.mem_append_right _ ht) hhead
  have hsecond : find secondIPv6Regexp val = none := by
    rw [Option.eq_none_iff_forall_ne_some]
    intro caps h
    obtain ⟨g, _, _, -, hval, h₁⟩ := exists_of_find_optional h
    obtain ⟨_, rfl, h₂⟩ := exists_of_find_lit h₁
    obtain ⟨port, _, _, -, -, rfl, h₃⟩ := exists_of_find_group h₂
    obtain ⟨_, rfl, h₄⟩ := exists_of_find_lit h₃
    obtain ⟨t, rfl, -⟩ := exists_of_find_lit h₄
    exact hlater (g ++ ':' :: port) t (by simp [hval])
  have hmiddle : find middleIPv6Regexp val = none := by
    rw [Option.eq_none_iff_forall_ne_some]
    intro caps h
    obtain ⟨port, _, _, -, -, hval, h₁⟩ := exists_of_find_group h
    obtain ⟨_, rfl, h₂⟩ := exists_of_find_lit h₁
    obtain ⟨t, rfl, -⟩ := exists_of_find_lit h₂
    exact hlater port t hval
  rw [ipv6Args, doubleIPv6Regexp, firstIPv6Regexp, hfirst, hfirst, hsecond, hmiddle]
  rfl

/-! ### Expressions that match -/

/-- The bracketed bind address and the bind port, in front of the rest of an expression. -/
theorem find_ipv6_bind (a : IPv6) (port : UInt16) (items : List (Item Char)) (t : Text) :
    find (.lit '[' :: .group isIPv6Char :: .lit ']' :: .lit ':' :: .group Char.isDigit ::
      .lit ':' :: items) ('[' :: (a.text ++ ']' :: ':' :: (portText port ++ ':' :: t))) =
      (find items t).map fun caps => a.text :: portText port :: caps := by
  rw [find_lit_self, find_ipv6, find_lit_self, find_port, Option.map_map]
  rfl

/-- The bracketed destination and its port, at the end of an expression. -/
theorem find_ipv6_dest (a : IPv6) (port : UInt16) :
    find [.lit '[', .group isIPv6Char, .lit ']', .lit ':', .group Char.isDigit]
      ('[' :: (a.text ++ ']' :: ':' :: portText port)) = some [a.text, portText port] := by
  rw [find_lit_self, find_ipv6, find_lit_self, find_last_port]
  rfl

theorem Host.find_bracket (h : Host) (items : List (Item Char)) (t : Text) :
    find (.lit '[' :: items) (h.text ++ t) = none :=
  find_lit_append h.ne_nil (h.not_mem (by decide))

theorem ipv6Args_double (a b : IPv6) (port port' : UInt16) :
    ipv6Args ('[' :: (a.text ++ ']' :: ':' :: (portText port ++ ':' :: '[' ::
      (b.text ++ ']' :: ':' :: portText port')))) =
      some ⟨some a.text, some (portText port), b.text, some (portText port')⟩ := by
  rw [ipv6Args, doubleIPv6Regexp, find_ipv6_bind, find_ipv6_dest]
  rfl

theorem ipv6Args_first (a : IPv6) (h : Host) (port port' : UInt16) :
    ipv6Args ('[' :: (a.text ++ ']' :: ':' :: (portText port ++ ':' ::
      (h.text ++ ':' :: portText port')))) =
      some ⟨some a.text, some (portText port), h.text, some (portText port')⟩ := by
  -- a host has no bracket, so the expression with two addresses does not match
  rw [ipv6Args, doubleIPv6Regexp, find_ipv6_bind, h.find_bracket, firstIPv6Regexp,
    find_ipv6_bind, find_host, find_last_port]
  rfl

/-- `g` is the bind address, which may be empty. -/
theorem ipv6Args_second {g : Text} (hcolon : ':' ∉ g) (hbracket : '[' ∉ g) (a : IPv6)
    (port port' : UInt16) :
    ipv6Args (g ++ ':' :: (portText port ++ ':' :: '[' ::
      (a.text ++ ']' :: ':' :: portText port'))) =
      some ⟨some g, some (portText port), a.text, some (portText port')⟩ := by
  have hfirst : ∀ (items : List (Item Char)) (t : Text),
      find (.lit '[' :: items) (g ++ ':' :: t) = none := by
    intro items t
    cases g with
    | nil => exact find_lit_ne (by decide)
    | cons c g => exact find_lit_append (List.cons_ne_nil c g) hbracket
  rw [ipv6Args, doubleIPv6Regexp, firstIPv6Regexp, hfirst, hfirst, secondIPv6Regexp,
    find_optional_colon hcolon, find_port, find_ipv6_dest]
  rfl

theorem ipv6Args_middle (a : IPv6) (port port' : UInt16) :
    ipv6Args (portText port ++ ':' :: '[' :: (a.text ++ ']' :: ':' :: portText port')) =
      some ⟨none, some (portText port), a.text, some (portText port')⟩ := by
  have hfirst : ∀ (items : List (Item Char)) (t : Text),
      find (.lit '[' :: items) (portText port ++ t) = none := by
    intro items t
    exact find_lit_append (portText_ne_nil port) (not_mem_portText (by decide) port)
  -- the port is taken for a bind address, but no port follows it
  have hsecond : find secondIPv6Regexp (portText port ++ ':' :: '[' ::
      (a.text ++ ']' :: ':' :: portText port')) = none := by
    rw [secondIPv6Regexp, find_optional_colon (not_mem_portText (by decide) port),
      find_group_stops (stops_cons.mpr (by decide))]
    rfl
  rw [ipv6Args, doubleIPv6Regexp, firstIPv6Regexp, hfirst, hfirst, hsecond, middleIPv6Regexp,
    find_port, find_ipv6_dest]
  rfl

/-! ## Between slashes -/

theorem IPv6.not_mem (a : IPv6) {c : Char} (hc : isIPv6Char c = false) : c ∉ a.text := by
  intro hmem
  rw [a.chars c hmem] at hc
  cases hc

/-! ### What holds of every token -/

section

variable {P : Text → Prop} {form : Form}

/-- A property of the tokens of a bind address, by the kinds of tokens. -/
theorem forall_bind_tokens {bind : Bind} (hempty : P []) (hhost : ∀ h : Host, P h.text)
    (hport : ∀ port, P (portText port))
    (hipv6 : ∀ a port, bind = .listen (.ipv6 a) port → P (form.ipv6 a))
    (hpath : ∀ path, bind = .unix path → P path.text) : ∀ t ∈ bind.tokens form, P t := by
  intro t ht
  cases bind with
  | unix path =>
    rw [List.mem_singleton.mp ht]
    exact hpath path rfl
  | listen addr port =>
    rw [Bind.tokens, List.mem_append, List.mem_singleton] at ht
    rcases ht with haddr | rfl
    · cases addr with
      | absent => cases haddr
      | empty =>
        rw [List.mem_singleton.mp haddr]
        exact hempty
      | host h =>
        rw [List.mem_singleton.mp haddr]
        exact hhost h
      | ipv6 a =>
        rw [List.mem_singleton.mp haddr]
        exact hipv6 a port rfl
    · exact hport port

theorem forall_dest_tokens {dest : Dest} (hhost : ∀ h : Host, P h.text)
    (hport : ∀ port, P (portText port))
    (hipv6 : ∀ a port, dest = .ipv6 a port → P (form.ipv6 a))
    (hpath : ∀ path, dest = .unix path → P path.text) : ∀ t ∈ dest.tokens form, P t := by
  intro t ht
  cases dest with
  | unix path =>
    rw [List.mem_singleton.mp ht]
    exact hpath path rfl
  | host h port =>
    rw [Dest.tokens, List.mem_cons, List.mem_singleton] at ht
    rcases ht with rfl | rfl
    · exact hhost h
    · exact hport port
  | ipv6 a port =>
    rw [Dest.tokens, List.mem_cons, List.mem_singleton] at ht
    rcases ht with rfl | rfl
    · exact hipv6 a port rfl
    · exact hport port

end

theorem Form.slash_not_mem_ipv6 (form : Form) (a : IPv6) : '/' ∉ form.ipv6 a := by
  have ha : '/' ∉ a.text := a.not_mem (by decide)
  cases form <;> simp [Form.ipv6, ha]

/-- Only a path has a slash. -/
theorem slash_not_mem_bind (form : Form) {bind : Bind} (hbind : ∀ path, bind ≠ .unix path) :
    ∀ t ∈ bind.tokens form, '/' ∉ t :=
  forall_bind_tokens List.not_mem_nil (fun h => h.not_mem (by decide))
    (not_mem_portText (by decide)) (fun a _ _ => form.slash_not_mem_ipv6 a)
    (fun path h => absurd h (hbind path))

theorem slash_not_mem_dest (form : Form) {dest : Dest} (hdest : ∀ path, dest ≠ .unix path) :
    ∀ t ∈ dest.tokens form, '/' ∉ t :=
  forall_dest_tokens (fun h => h.not_mem (by decide)) (not_mem_portText (by decide))
    (fun a _ _ => form.slash_not_mem_ipv6 a) (fun path h => absurd h (hdest path))

theorem tokens_ne_nil (bind : Bind) (dest : Dest) (form : Form) :
    bind.tokens form ≠ [] ∧ dest.tokens form ≠ [] := by
  constructor
  · cases bind with
    | listen addr port => simp [Bind.tokens]
    | unix path => exact List.cons_ne_nil _ _
  · cases dest <;> exact List.cons_ne_nil _ _

/-- Without a path the form with slashes is one of the first two patterns. -/
theorem forwardArgs_slash {f : Forwarding} (hpath : ¬ f.hasPath) :
    forwardArgs (f.text .slash) = some f.args := by
  obtain ⟨bind, dest, hsupported⟩ := f
  simp only [Forwarding.hasPath, not_or, not_exists] at hpath
  obtain ⟨hbind, hdest⟩ := hpath
  have hnone : ∀ t ∈ bind.tokens .slash ++ dest.tokens .slash, '/' ∉ t := by
    intro t ht
    rcases List.mem_append.mp ht with ht | ht
    · exact slash_not_mem_bind .slash hbind t ht
    · exact slash_not_mem_dest .slash hdest t ht
  have htwo : ∃ port, dest.tokens .slash = [dest.hostText, portText port] ∧
      dest.portToken = some (portText port) := by
    cases dest with
    | host h port => exact ⟨port, rfl, rfl⟩
    | ipv6 a port => exact ⟨port, rfl, rfl⟩
    | unix path => exact absurd rfl (hdest path)
  obtain ⟨port', htokens, hport'⟩ := htwo
  have hne : bind.tokens .slash ++ dest.tokens .slash ≠ [] :=
    List.append_ne_nil_of_left_ne_nil (tokens_ne_nil bind dest .slash).1 _
  have hsplit : (Forwarding.text ⟨bind, dest, hsupported⟩ .slash).splitOn '/' =
      bind.tokens .slash ++ dest.tokens .slash := List.splitOn_intercalate '/' hnone hne
  rw [htokens] at hsplit
  have hslash : slashArgs (Forwarding.text ⟨bind, dest, hsupported⟩ .slash) =
      some (Forwarding.args ⟨bind, dest, hsupported⟩) := by
    rw [slashArgs, hsplit, Forwarding.args, hport']
    cases bind with
    | listen addr port => cases addr <;> simp [Form.ipv6]
    | unix path => exact absurd rfl (hbind path)
  rw [forwardArgs, hslash, Option.some_or]

/-! ## Between colons -/

/-- In front of the first slash is no port, and behind it neither. -/
theorem slashArgs_eq_none {a rest : Text} (ha : '/' ∉ a) (hport : isPortOnly a = false)
    (hrest : isPortOnly (rest.takeWhile (· ≠ '/')) = false) : slashArgs (a ++ '/' :: rest) = none := by
  obtain ⟨ts, hts⟩ : ∃ ts, rest.splitOn '/' = rest.takeWhile (· ≠ '/') :: ts :=
    Split.splitOn_eq_takeWhile rest
  have hfirst : a.splitOn '/' = [a] := Split.splitOn_of_notMem ha
  have hsplit : (a ++ '/' :: rest).splitOn '/' = a :: rest.takeWhile (· ≠ '/') :: ts := by
    rw [List.splitOn] at hfirst hts ⊢
    rw [List.splitOnP_append_cons _ _ (by decide), hfirst, hts]
    rfl
  rw [slashArgs, hsplit]
  -- two, three, four or more tokens
  rcases ts with _ | ⟨t2, _ | ⟨t3, _ | ⟨t4, ts⟩⟩⟩
  · rfl
  · simp only [hport, Bool.false_and, Bool.false_eq_true, if_false]
  · simp only [hrest, Bool.false_and, Bool.false_eq_true, if_false]
  · rfl

theorem slashArgs_of_not_mem {val : Text} (h : '/' ∉ val) : slashArgs val = none := by
  rw [slashArgs, Split.splitOn_of_notMem h]

/-- The first component of a path is no port; if the path has one component only, what follows it
    begins with a colon. -/
theorem isPortOnly_component (path : UnixPath) {rest : Text} (hrest : ∀ c ∈ rest.head?, c = ':') :
    isPortOnly ((path.name ++ rest).takeWhile (· ≠ '/')) = false := by
  rw [List.takeWhile_append]
  split
  · next hlen =>
    have hname : path.name.takeWhile (· ≠ '/') = path.name :=
      (List.takeWhile_prefix _).eq_of_length hlen
    cases rest with
    | nil =>
      have hcomponent := path.component
      rw [hname] at hcomponent
      simpa using hcomponent
    | cons c rest =>
      obtain rfl : c = ':' := hrest c rfl
      refine isPortOnly_eq_false (c := ':') ?_ (by decide)
      rw [List.takeWhile_cons_of_pos (by decide)]
      exact List.mem_append_right _ List.mem_cons_self
  · exact path.component

/-- The form with colons is none of the patterns with slashes. -/
theorem slashArgs_colon (f : Forwarding) : slashArgs (f.text .colon) = none := by
  obtain ⟨bind, dest, hsupported⟩ := f
  obtain ⟨hbind, hdest⟩ := tokens_ne_nil bind dest .colon
  have htext : Forwarding.text ⟨bind, dest, hsupported⟩ .colon =
      [':'].intercalate (bind.tokens .colon) ++ ':' :: [':'].intercalate (dest.tokens .colon) :=
    Split.intercalate_append hbind hdest
  rw [htext]
  cases bind with
  | unix path =>
    -- the argument begins with the slash of the path
    have hpath : [':'].intercalate ((Bind.unix path).tokens .colon) = [] ++ '/' :: path.name :=
      List.intercalate_singleton
    rw [hpath, List.append_assoc, List.cons_append]
    exact slashArgs_eq_none List.not_mem_nil rfl (isPortOnly_component path (by simp))
  | listen addr port =>
    have hslash : '/' ∉ [':'].intercalate ((Bind.listen addr port).tokens .colon) := by
      intro hmem
      rcases Split.mem_intercalate hmem with hcolon | ⟨t, ht, hmem⟩
      · cases hcolon
      · exact slash_not_mem_bind .colon (fun _ h => by cases h) t ht hmem
    by_cases hunix : ∃ path, dest = .unix path
    · -- the first slash is the one behind the last colon
      obtain ⟨path, rfl⟩ := hunix
      have hpath : [':'].intercalate ((Dest.unix path).tokens .colon) = '/' :: (path.name ++ []) := by
        rw [List.append_nil]
        exact List.intercalate_singleton
      rw [hpath, List.append_cons]
      refine slashArgs_eq_none ?_ ?_ (isPortOnly_component path (by simp))
      · intro hmem
        rcases List.mem_append.mp hmem with hmem | hmem
        · exact hslash hmem
        · cases List.mem_singleton.mp hmem
      · exact isPortOnly_eq_false (c := ':') (List.mem_append_right _ List.mem_cons_self)
          (by decide)
    · refine slashArgs_of_not_mem ?_
      intro hmem
      rcases List.mem_append.mp hmem with hmem | hmem
      · exact hslash hmem
      rcases List.mem_cons.mp hmem with hcolon | hmem
      · cases hcolon
      rcases Split.mem_intercalate hmem with hcolon | ⟨t, ht, hmem⟩
      · cases hcolon
      · exact slash_not_mem_dest .colon (fun path h => hunix ⟨path, h⟩) t ht hmem

/-- Tokens that no expression for IPv6 addresses can begin with. -/
def PlainToken (t : Text) : Prop := ':' ∉ t ∧ t.head? ≠ some '['

theorem PlainToken.of_not_mem {t : Text} (hcolon : ':' ∉ t) (hbracket : '[' ∉ t) : PlainToken t :=
  ⟨hcolon, fun h => hbracket (List.mem_of_mem_head? h)⟩

theorem Host.plainToken (h : Host) : PlainToken h.text :=
  .of_not_mem (h.not_mem (by decide)) (h.not_mem (by decide))

theorem plainToken_portText (port : UInt16) : PlainToken (portText port) :=
  .of_not_mem (not_mem_portText (by decide) port) (not_mem_portText (by decide) port)

theorem plainToken_nil : PlainToken [] := .of_not_mem List.not_mem_nil List.not_mem_nil

theorem UnixPath.plainToken (path : UnixPath) : PlainToken path.text := by
  refine ⟨?_, by simp [UnixPath.text]⟩
  intro hmem
  rcases List.mem_cons.mp hmem with hslash | hmem
  · cases hslash
  · exact (path.plain ':' hmem).1 rfl

/-- Plain tokens are left to the patterns between colons. -/
theorem forwardArgs_plain {f : Forwarding}
    (hplain : ∀ t ∈ f.bind.tokens .colon ++ f.dest.tokens .colon, PlainToken t) :
    forwardArgs (f.text .colon) = colonArgs (f.text .colon) ∧
      (f.text .colon).splitOn ':' = f.bind.tokens .colon ++ f.dest.tokens .colon := by
  have hne : f.bind.tokens .colon ++ f.dest.tokens .colon ≠ [] :=
    List.append_ne_nil_of_left_ne_nil (tokens_ne_nil f.bind f.dest .colon).1 _
  have hcolon := fun t ht => (hplain t ht).1
  have hipv6 : ipv6Args (f.text .colon) = none :=
    ipv6Args_eq_none hne hcolon fun t ht => (hplain t ht).2
  rw [forwardArgs, slashArgs_colon, hipv6]
  exact ⟨rfl, List.splitOn_intercalate ':' hcolon hne⟩

/-- The form with colons, without IPv6 addresses. -/
theorem forwardArgs_colon_plain {f : Forwarding} (hbind : ∀ a port, f.bind ≠ .listen (.ipv6 a) port)
    (hdest : ∀ a port, f.dest ≠ .ipv6 a port) : forwardArgs (f.text .colon) = some f.args := by
  have hplain : ∀ t ∈ f.bind.tokens .colon ++ f.dest.tokens .colon, PlainToken t := by
    intro t ht
    rcases List.mem_append.mp ht with ht | ht
    · exact forall_bind_tokens plainToken_nil Host.plainToken plainToken_portText
        (fun a port h => absurd h (hbind a port)) (fun path _ => path.plainToken) t ht
    · exact forall_dest_tokens Host.plainToken plainToken_portText
        (fun a port h => absurd h (hdest a port)) (fun path _ => path.plainToken) t ht
  obtain ⟨hcolon, hsplit⟩ := forwardArgs_plain hplain
  rw [hcolon, colonArgs, hsplit, Forwarding.args]
  -- the tokens decide: ports are no paths and paths are no ports, but a host may be a port
  cases hb : f.bind with
  | listen addr port =>
    cases hd : f.dest with
    | host h port' =>
      cases addr with
      | absent => simp
      | empty => simp
      | host h' => simp
      | ipv6 a => exact absurd hb (hbind a port)
    | unix path =>
      cases addr with
      | absent => simp
      | empty => simp
      | host h => simp
      | ipv6 a => exact absurd hb (hbind a port)
    | ipv6 a port' => exact absurd hd (hdest a port')
  | unix path =>
    cases hd : f.dest with
    | host h port' => simp
    | unix path' => simp
    | ipv6 a port' => exact absurd hd (hdest a port')

/-- The form with colons, with an IPv6 address. -/
theorem ipv6Args_text {bind : Bind} {dest : Dest} (hsupported : ¬ Mixed bind dest)
    (hipv6 : (∃ a port, bind = .listen (.ipv6 a) port) ∨ ∃ a port, dest = .ipv6 a port) :
    ipv6Args (Forwarding.text ⟨bind, dest, hsupported⟩ .colon) =
      some (Forwarding.args ⟨bind, dest, hsupported⟩) := by
  simp only [Forwarding.text, Forwarding.args, Form.separator]
  by_cases hbind : ∃ a port, bind = .listen (.ipv6 a) port
  · obtain ⟨a, port, rfl⟩ := hbind
    cases dest with
    | host h port' => simpa [Form.ipv6] using ipv6Args_first a h port port'
    | ipv6 b port' => simpa [Form.ipv6] using ipv6Args_double a b port port'
    | unix path => exact absurd trivial hsupported
  · obtain ⟨a, port', rfl⟩ := hipv6.resolve_left hbind
    cases bind with
    | unix path => exact absurd trivial hsupported
    | listen addr port =>
      cases addr with
      | absent => simpa [Form.ipv6] using ipv6Args_middle a port port'
      | empty =>
        simpa [Form.ipv6] using ipv6Args_second List.not_mem_nil List.not_mem_nil a port port'
      | host h =>
        simpa [Form.ipv6] using
          ipv6Args_second (h.not_mem (by decide)) (h.not_mem (by decide)) a port port'
      | ipv6 b => exact absurd ⟨b, port, rfl⟩ hbind

/-- **Colons.**  The first pattern that matches is the one for the shape of the argument. -/
theorem forwardArgs_colon (f : Forwarding) : forwardArgs (f.text .colon) = some f.args := by
  by_cases hipv6 : (∃ a port, f.bind = .listen (.ipv6 a) port) ∨ ∃ a port, f.dest = .ipv6 a port
  · rw [forwardArgs, slashArgs_colon, ipv6Args_text f.supported hipv6]
    rfl
  · rw [not_or] at hipv6
    exact forwardArgs_colon_plain (fun a port h => hipv6.1 ⟨a, port, h⟩)
      (fun a port h => hipv6.2 ⟨a, port, h⟩)

/-! ## The whole argument -/

theorem isSpace_of_isIPv6Char {c : Char} (h : isIPv6Char c = true) : isSpace c = false := by
  simp only [isIPv6Char, Char.isDigit, Bool.or_eq_true, Bool.and_eq_true, decide_eq_true_eq] at h
  have hbounds : 32 < c.toNat ∧ c.toNat < 127 := by
    rcases h with ((rfl | ⟨hlow, hhigh⟩) | ⟨hlow, hhigh⟩) | ⟨hlow, hhigh⟩
    · decide
    · have hlow : 48 ≤ c.toNat := hlow
      have hhigh : c.toNat ≤ 57 := hhigh
      omega
    · have hlow : 97 ≤ c.toNat := hlow
      have hhigh : c.toNat ≤ 102 := hhigh
      omega
    · have hlow : 65 ≤ c.toNat := hlow
      have hhigh : c.toNat ≤ 70 := hhigh
      omega
  exact isSpace_of_visible hbounds.1 hbounds.2

/-- A text without blanks. -/
def Solid (t : Text) : Prop := ∀ c ∈ t, isSpace c = false

theorem solid_portText (port : UInt16) : Solid (portText port) := fun _ hc =>
  Ports.isSpace_of_isDigit (isDigit_of_mem_portText hc)

theorem Host.solid (h : Host) : Solid h.text := fun c hc => (h.plain c hc).2

theorem Form.solid_ipv6 (form : Form) (a : IPv6) : Solid (form.ipv6 a) := by
  have ha : Solid a.text := fun c hc => isSpace_of_isIPv6Char (a.chars c hc)
  cases form with
  | slash => exact ha
  | colon =>
    intro c hc
    simp only [Form.ipv6, List.mem_cons, List.mem_append, List.not_mem_nil, or_false] at hc
    rcases hc with rfl | hc | rfl
    · decide
    · exact ha c hc
    · decide

theorem UnixPath.solid (path : UnixPath) : Solid path.text := by
  intro c hc
  rcases List.mem_cons.mp hc with rfl | hc
  · decide
  · exact (path.plain c hc).2

theorem Forwarding.solid (f : Forwarding) (form : Form) : Solid (f.text form) := by
  intro c hc
  rcases Split.mem_intercalate hc with rfl | ⟨t, ht, hc⟩
  · cases form <;> decide
  rcases List.mem_append.mp ht with ht | ht
  · exact forall_bind_tokens nofun Host.solid solid_portText (fun a _ _ => form.solid_ipv6 a)
      (fun path _ => path.solid) t ht c hc
  · exact forall_dest_tokens Host.solid solid_portText (fun a _ _ => form.solid_ipv6 a)
      (fun path _ => path.solid) t ht c hc

theorem UdpPrefix.solid (x : UdpPrefix) : Solid x.text := by
  obtain ⟨u, d, p, separator, ⟨hu, hd, hp⟩, hseparator⟩ := x
  intro c hc
  simp only [UdpPrefix.text, List.mem_cons, List.not_mem_nil, or_false] at hc
  rcases hc with rfl | rfl | rfl | rfl
  · rcases hu with rfl | rfl <;> decide
  · rcases hd with rfl | rfl <;> decide
  · rcases hp with rfl | rfl <;> decide
  · rcases hseparator with rfl | rfl | rfl | rfl <;> decide

theorem isUdpPrefix_text (x : UdpPrefix) (t : Text) : isUdpPrefix (x.text ++ t) = true := by
  obtain ⟨u, d, p, separator, ⟨hu, hd, hp⟩, hseparator⟩ := x
  simp only [UdpPrefix.text, List.cons_append, List.nil_append, isUdpPrefix, Bool.and_eq_true,
    Bool.or_eq_true, decide_eq_true_eq]
  exact ⟨⟨⟨hu, hd⟩, hp⟩, by simpa [or_assoc] using hseparator⟩

theorem forwardArgs_text (f : Forwarding) (form : Form) (hpath : form = .slash → ¬ f.hasPath) :
    forwardArgs (f.text form) = some f.args := by
  cases form with
  | colon => exact forwardArgs_colon f
  | slash => exact forwardArgs_slash (hpath rfl)

/-- What is written is read. -/
theorem parseForwardArg_eq (f : Forwarding) (form : Form) (udp : Option UdpPrefix)
    (hpath : form = .slash → ¬ f.hasPath)
    (hudp : udp = none → isUdpPrefix (f.text form) = false) :
    parseForwardArg (f.argument form udp) = .ok (f.cfg udp.isSome (f.argument form udp)) := by
  have hargs := forwardArgs_text f form hpath
  cases udp with
  | none =>
    have htrim : trimSpace (f.text form) = f.text form := trimSpace_eq_self (f.solid form)
    simp only [parseForwardArg, Forwarding.argument, htrim, hudp rfl, Bool.false_eq_true, if_false,
      hargs, newForwardCfg_args]
    rfl
  | some x =>
    have hsolid : Solid (x.text ++ f.text form) := by
      intro c hc
      rcases List.mem_append.mp hc with hc | hc
      · exact x.solid c hc
      · exact f.solid form c hc
    have htrim := trimSpace_eq_self hsolid
    have hdrop : (x.text ++ f.text form).drop 4 = f.text form := rfl
    simp only [parseForwardArg, Forwarding.argument, htrim, isUdpPrefix_text, if_true, hdrop,
      hargs, newForwardCfg_args]
    rfl

theorem portValue_ne_neg (port : UInt16) : ((port.toNat : Nat) : Int) ≠ -1 := by omega

/-- **Forwarding arguments.**  Every supported combination of components is read back from its text,
    in either form and with or without a prefix; the bind address is nil exactly if it is absent,
    and a port is -1 exactly for a Unix socket. -/
theorem parseForwardArg_text (f : Forwarding) (form : Form) (udp : Option UdpPrefix)
    (hpath : form = .slash → ¬ f.hasPath)
    (hudp : udp = none → isUdpPrefix (f.text form) = false) :
    ∃ cfg, parseForwardArg (f.argument form udp) = .ok cfg ∧
      cfg = ⟨udp.isSome, f.argument form udp, f.bind.addr, f.bind.portValue, f.dest.hostText,
        f.dest.portValue⟩ ∧
      (cfg.bindAddr = none ↔ ∃ port, f.bind = .listen .absent port) ∧
      (cfg.bindPort = -1 ↔ ∃ path, f.bind = .unix path) ∧
      (cfg.destPort = -1 ↔ ∃ path, f.dest = .unix path) := by
  refine ⟨_, parseForwardArg_eq f form udp hpath hudp, rfl, ?_, ?_, ?_⟩
  · show f.bind.addr = none ↔ _
    cases f.bind with
    | unix path => simp
    | listen addr port => cases addr <;> simp
  · show f.bind.portValue = -1 ↔ _
    cases f.bind with
    | unix path => simp [Bind.portValue]
    | listen addr port => simp [Bind.portValue, portValue_ne_neg]
  · show f.dest.portValue = -1 ↔ _
    cases f.dest <;> simp [Dest.portValue, portValue_ne_neg]

def numericHost : Host where
  text := ['1', '2']
  ne_nil := List.cons_ne_nil _ _
  plain := by
    intro c hc
    simp only [List.mem_cons, List.not_mem_nil, or_false] at hc
    rcases hc with rfl | rfl <;> decide

/-- An empty bind address and a numeric host. -/
theorem parseForwardArg_text_numeric_host :
    parseForwardArg [':', '9', '0', ':', '1', '2', ':', '8', '0'] =
      .ok ⟨false, [':', '9', '0', ':', '1', '2', ':', '8', '0'], some [], 90, ['1', '2'], 80⟩ := by
  obtain ⟨cfg, hparse, rfl, -⟩ := parseForwardArg_text
    ⟨.listen .empty 90, .host numericHost 80, id⟩ .colon none nofun (fun _ => rfl)
  exact hparse

end ForwardArg
