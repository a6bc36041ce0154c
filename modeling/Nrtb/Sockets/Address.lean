import Nrtb.Common
import Nrtb.Lib.Decimal

/-!
# `str_to_sockaddr`

`cpp/common/sockets/base_socket.cpp`, lines 35–43 and 118–154. The functions of the C library that
look for a host are a parameter. A number that is returned as it was declared, without a value, is
`garbage`.

`base_socket.h` documents a format, a host or `*` and a port or `*` with a colon between them, and
an exception for any other text. The format is a predicate of its own here (`WellFormed`), from
which no call can be read off. The code cuts at the colon, looks the host up, and reads the port
with a stream that is not asked whether it failed. So every text with one colon and a host that is
found is accepted, whatever stands behind the colon.

* `str_to_sockaddr_pair`: what comes of a text with one colon.
* `lexical_cast_digits`: a port that is written in digits, saturated at the largest one.
* `acceptsFormat_iff`: when exactly the addresses of the documented format are accepted.
-/

namespace Nrtb.SockAddr

open Istream

/-! ## The C library -/

/-- `struct in_addr`: the four bytes as they are sent. -/
abbrev InAddr := Byte × Byte × Byte × Byte

/-- `struct hostent`, with the first of the `h_addr_list`. -/
structure Hostent where
  h_length : Int
  h_addr : InAddr

/-- `*` -/
def star : Str := str "*"

def dot : Byte := 46

/-- Four numbers below 256 with dots between them. -/
def DottedQuad (host : Str) : Prop :=
  ∃ a b c d : Nat, a < 256 ∧ b < 256 ∧ c < 256 ∧ d < 256 ∧
    host = [dot].intercalate [Decimal.digits a, Decimal.digits b, Decimal.digits c,
      Decimal.digits d]

/-- What is asked for a host. -/
structure Libc where
  gethostbyname : Str → Option Hostent
  inet_aton : Str → Option InAddr
  inet_aton_quad : ∀ host, DottedQuad host → (inet_aton host).isSome = true

/-- `host.c_str()`, as it is read: up to the first NUL. -/
def c_str (host : Str) : Str := host.takeWhile fun c => c ≠ Ch.nul

/-- The bytes of a `uint16_t` in network order. -/
def htons (port : UInt16) : Byte × Byte := ((port >>> 8).toUInt8, port.toUInt8)

/-- The number that a port in network order stands for. -/
def ntohs (sin_port : Byte × Byte) : Nat := 256 * sin_port.1.toNat + sin_port.2.toNat

theorem ntohs_htons (port : UInt16) : ntohs (htons port) = port.toNat := by
  have hlt := port.toNat_lt
  have hshift : (port >>> 8).toNat = port.toNat / 2 ^ 8 := by
    rw [UInt16.toNat_shiftRight, Nat.shiftRight_eq_div_pow]
    rfl
  simp only [ntohs, htons, UInt16.toNat_toUInt8, hshift]
  omega

/-- The name service knows the host. -/
def Libc.Resolves (libc : Libc) (host : Str) : Prop :=
  ∃ name, libc.gethostbyname host = some name ∧ name.h_length > 0

/-! ## The program -/

/-- The digits behind a sign as a `uint16_t`; a negative number wraps around. -/
def unsigned (negative : Bool) (sign : Nat) (digits : Str) : Scan UInt16 :=
  match decimal digits with
  | .good n used =>
    let result := UInt16.ofNat n.toNat
    if 65535 < n then .bad 65535 else .good (if negative then -result else result) (sign + used)
  | .bad _ => .bad 0

/-- The `num_get` of `uint16_t`. -/
def scanPort (w : Str) : Scan UInt16 :=
  match w with
  | [] => .bad 0
  | c :: rest =>
    if c = 45 then unsigned true 1 rest
    else if c = 43 then unsigned false 1 rest
    else unsigned false 0 w

/-- `lexical_cast<uint16_t>(arg)`: the stream is not asked whether it failed. -/
def lexical_cast (garbage : UInt16) (arg : Str) : UInt16 :=
  (number isspace scanPort ⟨arg, false⟩).1.getD garbage

/-- `struct sockaddr_in` -/
structure SockaddrIn where
  sin_family : Nat
  sin_port : Byte × Byte
  sin_addr : InAddr
deriving DecidableEq, Repr

def AF_INET : Nat := 2

inductive AddressException where
  | bad_address_exception
deriving DecidableEq, Repr

/-- The address of a host that is not `*`. -/
def hostAddr (libc : Libc) (host : Str) : Option InAddr :=
  match libc.gethostbyname (c_str host) with
  | some name => if name.h_length > 0 then some name.h_addr else libc.inet_aton (c_str host)
  | none => libc.inet_aton (c_str host)

/-- `str_to_sockaddr(address)` -/
def str_to_sockaddr (libc : Libc) (garbage : UInt16) (address : Str) :
    Except AddressException SockaddrIn :=
  let in_address : SockaddrIn := ⟨AF_INET, (0, 0), (0, 0, 0, 0)⟩
  match split address Ch.colon with
  | [ip, port] =>
    match if ip = star then some in_address.sin_addr else hostAddr libc ip with
    | none => .error .bad_address_exception
    | some sin_addr =>
      let sin_port :=
        if port = star then in_address.sin_port else htons (lexical_cast garbage port)
      .ok { in_address with sin_addr, sin_port }
  | _ => .error .bad_address_exception

/-! ## The format -/

/-- A text with one colon. -/
structure HostPort (address host port : Str) : Prop where
  join : address = host ++ Ch.colon :: port
  host_colon : Ch.colon ∉ host
  port_colon : Ch.colon ∉ port

/-- `*`, a name that is resolved, or a dotted quad. -/
def GoodHost (libc : Libc) (host : Str) : Prop :=
  host = star ∨ Ch.nul ∉ host ∧ (libc.Resolves host ∨ DottedQuad host)

/-- `*`, for 0, or the digits of a number that a port may have. -/
def PortText (port : Str) (n : Nat) : Prop :=
  port = star ∧ n = 0 ∨
    port ≠ [] ∧ (∀ c ∈ port, Decimal.isDigit c = true) ∧ Decimal.value port = n ∧ n ≤ 65535

/-- `host:port`, for the port `n`. -/
def WellFormed (libc : Libc) (address : Str) (n : Nat) : Prop :=
  ∃ host port, HostPort address host port ∧ GoodHost libc host ∧ PortText port n

/-- The address is accepted with its port when it is well formed, and refused when it is not. -/
structure AcceptsFormat (libc : Libc) (garbage : UInt16) (address : Str) : Prop where
  returns : ∀ n, WellFormed libc address n →
    ∃ in_address, str_to_sockaddr libc garbage address = .ok in_address
      ∧ ntohs in_address.sin_port = n
  rejects : (¬ ∃ n, WellFormed libc address n) →
    str_to_sockaddr libc garbage address = .error .bad_address_exception

/-- The hosts that the program goes on with. -/
def Taken (libc : Libc) (host : Str) : Prop :=
  host = star ∨ libc.Resolves (c_str host) ∨ (libc.inet_aton (c_str host)).isSome = true

section Results

variable {libc : Libc} {garbage : UInt16} {address host port : Str}

theorem split_eq_iff : split address Ch.colon = [host, port] ↔ HostPort address host port := by
  rw [split_eq_pair_iff]
  exact ⟨fun ⟨hjoin, hhost, hport⟩ => ⟨hjoin, hhost, hport⟩,
    fun h => ⟨h.join, h.host_colon, h.port_colon⟩⟩

/-- An address has one colon in one place only. -/
theorem HostPort.unique {host' port' : Str} (h : HostPort address host port)
    (h' : HostPort address host' port') : host' = host ∧ port' = port := by
  have hsplit := (split_eq_iff.mpr h').symm.trans (split_eq_iff.mpr h)
  simpa using hsplit

/-! ## Hosts -/

theorem hostAddr_isSome :
    (hostAddr libc host).isSome = true ↔
      libc.Resolves (c_str host) ∨ (libc.inet_aton (c_str host)).isSome = true := by
  unfold hostAddr Libc.Resolves
  cases libc.gethostbyname (c_str host) with
  | none => simp
  | some name =>
    by_cases hlength : name.h_length > 0
    · simp [hlength]
    · simp [hlength]

theorem c_str_eq (h : Ch.nul ∉ host) : c_str host = host :=
  List.takeWhile_eq_self_iff.mpr fun _ hc => decide_eq_true fun hnul => h (hnul ▸ hc)

theorem GoodHost.taken (h : GoodHost libc host) : Taken libc host := by
  rcases h with hstar | ⟨hnul, hresolves | hquad⟩
  · exact .inl hstar
  · exact .inr (.inl (by rwa [c_str_eq hnul]))
  · exact .inr (.inr (by rw [c_str_eq hnul]; exact libc.inet_aton_quad host hquad))

/-! ## Ports -/

theorem scanPort_digits (hne : port ≠ []) (hport : ∀ c ∈ port, Decimal.isDigit c = true)
    (hmax : Decimal.value port ≤ 65535) :
    scanPort port = .good (UInt16.ofNat (Decimal.value port)) port.length := by
  obtain ⟨c, rest, rfl⟩ := List.exists_cons_of_ne_nil hne
  have hdigit := hport c (by simp)
  have hminus : c ≠ 45 := by
    rintro rfl
    exact absurd hdigit (by decide)
  have hplus : c ≠ 43 := by
    rintro rfl
    exact absurd hdigit (by decide)
  have hread := Decimal.decimal_of_isDigit hport hne
  have hfits : ¬ (65535 : Int) < Decimal.value (c :: rest) := by omega
  simp only [scanPort, if_neg hminus, if_neg hplus, unsigned, hread, if_neg hfits,
    Int.toNat_natCast, Bool.false_eq_true, if_false, Nat.zero_add]

theorem lexical_cast_digits (hne : port ≠ []) (hport : ∀ c ∈ port, Decimal.isDigit c = true)
    (hmax : Decimal.value port ≤ 65535) :
    (lexical_cast garbage port).toNat = Decimal.value port := by
  have hword : word isspace port = (port, []) := by
    have hspace : ∀ c ∈ port, isspace c = false := fun c hc =>
      isspace_of_lt (Nat.lt_of_lt_of_le (by decide) (Decimal.le_toNat_of_isDigit (hport c hc)))
    have hinitial : word isspace (port ++ []) = (port, []) := word_initial isspace hspace hne rfl
    rwa [List.append_nil] at hinitial
  have hnumber : (number isspace scanPort ⟨port, false⟩).1
      = some (UInt16.ofNat (Decimal.value port)) := by
    simp only [number, Bool.false_eq_true, if_false, hword, List.isEmpty_eq_false_iff.mpr hne,
      scanPort_digits hne hport hmax]
  rw [lexical_cast, hnumber, Option.getD_some, UInt16.toNat_ofNat']
  exact Nat.mod_eq_of_lt (by omega)

/-- The number that the program takes for a port. -/
def portOf (garbage : UInt16) (port : Str) : Nat :=
  if port = star then 0 else (lexical_cast garbage port).toNat

theorem portOf_of_portText {n : Nat} (h : PortText port n) : portOf garbage port = n := by
  rcases h with ⟨rfl, rfl⟩ | ⟨hne, hdigits, rfl, hmax⟩
  · exact if_pos rfl
  · have hstar : port ≠ star := by
      rintro rfl
      exact absurd (hdigits 42 (by decide)) (by decide)
    rw [portOf, if_neg hstar, lexical_cast_digits hne hdigits hmax]

theorem ntohs_sin_port :
    ntohs (if port = star then (0, 0) else htons (lexical_cast garbage port))
      = portOf garbage port := by
  unfold portOf
  split
  · rfl
  · exact ntohs_htons _

/-! ## Addresses -/

/-- With one colon, only the host is checked. -/
theorem str_to_sockaddr_pair (h : HostPort address host port) :
    (Taken libc host → ∃ in_address, str_to_sockaddr libc garbage address = .ok in_address
        ∧ ntohs in_address.sin_port = portOf garbage port)
      ∧ (¬ Taken libc host →
        str_to_sockaddr libc garbage address = .error .bad_address_exception) := by
  unfold str_to_sockaddr
  rw [split_eq_iff.mpr h]
  by_cases hstar : host = star
  · simp only [if_pos hstar]
    exact ⟨fun _ => ⟨_, rfl, ntohs_sin_port⟩, fun hnot => absurd (.inl hstar) hnot⟩
  · simp only [if_neg hstar]
    cases haddr : hostAddr libc host with
    | none =>
      have hnot : ¬ Taken libc host := fun htaken => by
        have hsome := hostAddr_isSome.mpr (htaken.resolve_left hstar)
        rw [haddr] at hsome
        cases hsome
      exact ⟨fun htaken => absurd htaken hnot, fun _ => rfl⟩
    | some addr =>
      have htaken : Taken libc host := .inr (hostAddr_isSome.mp (by rw [haddr]; rfl))
      exact ⟨fun _ => ⟨_, rfl, ntohs_sin_port⟩, fun hnot => absurd htaken hnot⟩

theorem str_to_sockaddr_rejects (h : ∀ host port, ¬ HostPort address host port) :
    str_to_sockaddr libc garbage address = .error .bad_address_exception := by
  unfold str_to_sockaddr
  split
  · next host port hsplit => exact absurd (split_eq_iff.mp hsplit) (h host port)
  · rfl

/-- Neither the port nor what stands behind a NUL of the host is looked at before the address is
accepted. So the right side is on the resolver and the text: whatever it takes for the host has to
be one, with a port behind the colon. -/
theorem acceptsFormat_iff (libc : Libc) (garbage : UInt16) (address : Str) :
    AcceptsFormat libc garbage address ↔
      ∀ host port, HostPort address host port → Taken libc host →
        GoodHost libc host ∧ ∃ n, PortText port n := by
  constructor
  · intro h host port hpair htaken
    have haccepts : ∃ in_address, str_to_sockaddr libc garbage address = .ok in_address
        ∧ ntohs in_address.sin_port = portOf garbage port := (str_to_sockaddr_pair hpair).1 htaken
    obtain ⟨in_address, hok, _⟩ := haccepts
    have hformed : ∃ n, WellFormed libc address n := by
      by_contra hnot
      rw [h.rejects hnot] at hok
      cases hok
    obtain ⟨n, host', port', hpair', hhost, hport⟩ := hformed
    obtain ⟨rfl, rfl⟩ := hpair.unique hpair'
    exact ⟨hhost, n, hport⟩
  · intro h
    constructor
    · rintro n ⟨host, port, hpair, hhost, hport⟩
      have hnumber : portOf garbage port = n := portOf_of_portText hport
      rw [← hnumber]
      exact (str_to_sockaddr_pair hpair).1 hhost.taken
    · intro hnot
      by_cases hpair : ∃ host port, HostPort address host port
      · obtain ⟨host, port, hpair⟩ := hpair
        refine (str_to_sockaddr_pair hpair).2 fun htaken => ?_
        obtain ⟨hhost, n, hport⟩ := h host port hpair htaken
        exact hnot ⟨n, host, port, hpair, hhost, hport⟩
      · exact str_to_sockaddr_rejects fun host port hp => hpair ⟨host, port, hp⟩

end Results

/-! ## A port that is no number -/

/-- A number of a dotted quad. -/
def quadByte (part : Str) : Option Byte :=
  if Decimal.digits (Decimal.value part) = part ∧ Decimal.value part < 256 then
    some (UInt8.ofNat (Decimal.value part))
  else none

/-- The dotted quads, and nothing else. -/
def quad (host : Str) : Option InAddr :=
  match host.splitOn dot with
  | [a, b, c, d] => do
    let a ← quadByte a
    let b ← quadByte b
    let c ← quadByte c
    let d ← quadByte d
    pure (a, b, c, d)
  | _ => none

theorem quadByte_digits {n : Nat} (h : n < 256) :
    quadByte (Decimal.digits n) = some (UInt8.ofNat n) := by
  rw [quadByte, Decimal.value_digits, if_pos ⟨rfl, h⟩]

theorem quad_isSome (host : Str) (h : DottedQuad host) : (quad host).isSome = true := by
  obtain ⟨a, b, c, d, ha, hb, hc, hd, rfl⟩ := h
  have hdot : ∀ n, dot ∉ Decimal.digits n := fun n hmem =>
    absurd (Decimal.digits_isDigit n dot hmem) (by decide)
  have hparts : ∀ part ∈ [Decimal.digits a, Decimal.digits b, Decimal.digits c,
      Decimal.digits d], dot ∉ part := by
    simp [hdot]
  rw [quad, List.splitOn_intercalate dot hparts (List.cons_ne_nil _ _)]
  simp [quadByte_digits ha, quadByte_digits hb, quadByte_digits hc, quadByte_digits hd]

/-- A machine without a name service. -/
def offline : Libc where
  gethostbyname _ := none
  inet_aton := quad
  inet_aton_quad := quad_isSome

/-- A service name for a port: the address is accepted with port 0. -/
theorem service_name_accepted :
    str_to_sockaddr offline 0 (str "127.0.0.1:http") = .ok ⟨AF_INET, (0, 0), (127, 0, 0, 1)⟩
      ∧ ¬ AcceptsFormat offline 0 (str "127.0.0.1:http") := by
  have hpair : HostPort (str "127.0.0.1:http") (str "127.0.0.1") (str "http") :=
    ⟨by decide, by decide, by decide⟩
  have haddr : hostAddr offline (str "127.0.0.1") = some (127, 0, 0, 1) := by decide
  have hok : str_to_sockaddr offline 0 (str "127.0.0.1:http")
      = .ok ⟨AF_INET, (0, 0), (127, 0, 0, 1)⟩ := by
    have hstar : str "127.0.0.1" ≠ star := by decide
    have hport : (if str "http" = star then (0, 0) else htons (lexical_cast 0 (str "http")))
        = (0, 0) := by decide
    unfold str_to_sockaddr
    simp only [split_eq_iff.mpr hpair, if_neg hstar, haddr, hport]
  refine ⟨hok, fun h => ?_⟩
  have hrejects := h.rejects fun ⟨n, host, port, hpair', _, hport⟩ => by
    obtain ⟨rfl, rfl⟩ := hpair.unique hpair'
    rcases hport with ⟨hstar, _⟩ | ⟨_, hdigits, _⟩
    · exact absurd hstar (by decide)
    · exact absurd (hdigits 104 (by decide)) (by decide)
  rw [hok] at hrejects
  cases hrejects

end Nrtb.SockAddr
