import Nrtb.Sockets.Address

/-!
# `sockaddr_to_str`

`cpp/common/sockets/base_socket.cpp`, lines 156–209 and 495–551: the text of an address, and the
calls that take and give such texts. `_last_error` and `_status`, which they only write, are left
out.

A program passes addresses around as texts, so that it matters that a text which was given out can
be handed in again. The text of an address has a dotted quad or a `*` in front of its one colon, and
digits or a `*` behind it, which is what `str_to_sockaddr` takes apart; of the C library it is only
used that four numbers are not looked up.

* `hostPort_text`: the two halves of the text.
* `address_round_trip`: the text of an address is read back as that address.
-/

namespace Nrtb.SockAddr

/-- `inet_ntoa` -/
def inet_ntoa (addr : InAddr) : Str :=
  [dot].intercalate [Decimal.digits addr.1.toNat, Decimal.digits addr.2.1.toNat,
    Decimal.digits addr.2.2.1.toNat, Decimal.digits addr.2.2.2.toNat]

/-- `sockaddr_to_str(address)` -/
def sockaddr_to_str (address : SockaddrIn) : Str :=
  let returnme := inet_ntoa address.sin_addr
  let returnme := if returnme = str "0.0.0.0" then star else returnme
  let returnme := returnme ++ [Ch.colon]
  let myport := ntohs address.sin_port
  if myport > 0 then returnme ++ Decimal.digits myport else returnme ++ star

inductive Thrown where
  | bad_address
  | cant_bind (comment : Str)
  | bad_connect (comment : Str)
  | not_open
  | buffer_full
  | general
deriving DecidableEq

inductive NameErrno where
  | enotconn
  | enobufs
  | other (code : Nat)

/-- `bind(address)`: what `::bind` is called with, and what becomes of it. -/
def bind (libc : Libc) (garbage : UInt16) (fails : SockaddrIn → Bool) (address : Str) :
    List SockaddrIn × Except Thrown Unit :=
  if address ≠ str "*:*" then
    match str_to_sockaddr libc garbage address with
    | .error _ => ([], .error .bad_address)
    | .ok in_address =>
      ([in_address], if fails in_address then .error (.cant_bind address) else .ok ())
  else ([], .ok ())

/-- `connect(address)`: what `::connect` is called with, and what becomes of it. -/
def connect (libc : Libc) (garbage : UInt16) (fails : SockaddrIn → Bool) (address : Str) :
    List SockaddrIn × Except Thrown Unit :=
  match str_to_sockaddr libc garbage address with
  | .error _ => ([], .error .bad_address)
  | .ok in_address =>
    ([in_address], if fails in_address then .error (.bad_connect address) else .ok ())

/-- `get_local_address()`, for what comes of `getsockname`. -/
def get_local_address : Except NameErrno SockaddrIn → Except Thrown Str
  | .error .enobufs => .error .buffer_full
  | .error _ => .error .general
  | .ok myaddr => .ok (sockaddr_to_str myaddr)

/-- `get_remote_address()`, for what comes of `getpeername`. -/
def get_remote_address : Except NameErrno SockaddrIn → Except Thrown Str
  | .error .enotconn => .error .not_open
  | .error .enobufs => .error .buffer_full
  | .error _ => .error .general
  | .ok myaddr => .ok (sockaddr_to_str myaddr)

/-- Four numbers are read as the bytes of an address, and not looked up. -/
structure Numeric (libc : Libc) : Prop where
  gethostbyname : ∀ addr name, libc.gethostbyname (inet_ntoa addr) = some name → name.h_addr = addr
  inet_aton : ∀ addr, libc.inet_aton (inet_ntoa addr) = some addr

variable {libc : Libc} {garbage : UInt16} {address : SockaddrIn}

/-! ## The host -/

theorem inet_ntoa_chars (addr : InAddr) :
    ∀ c ∈ inet_ntoa addr, c = dot ∨ Decimal.isDigit c = true := by
  intro c hc
  have hdigits : ∀ n, c ∈ Decimal.digits n → Decimal.isDigit c = true := fun n =>
    Decimal.digits_isDigit n c
  simp only [inet_ntoa, List.intercalate, List.intersperse, List.flatten_cons, List.mem_append,
    List.mem_singleton, List.flatten_nil, List.append_nil] at hc
  grind

theorem dottedQuad_inet_ntoa (addr : InAddr) : DottedQuad (inet_ntoa addr) :=
  ⟨_, _, _, _, addr.1.toNat_lt, addr.2.1.toNat_lt, addr.2.2.1.toNat_lt, addr.2.2.2.toNat_lt, rfl⟩

theorem notMem_inet_ntoa (addr : InAddr) {c : Byte} (hdot : c ≠ dot)
    (hdigit : Decimal.isDigit c = false) : c ∉ inet_ntoa addr := fun hmem => by
  rcases inet_ntoa_chars addr c hmem with h | h
  · exact hdot h
  · rw [hdigit] at h
    cases h

/-- The numbers stand for the bytes. -/
theorem quad_inet_ntoa (addr : InAddr) : quad (inet_ntoa addr) = some addr := by
  have hdot : ∀ n, dot ∉ Decimal.digits n := fun n hmem =>
    absurd (Decimal.digits_isDigit n dot hmem) (by decide)
  have hparts : ∀ part ∈ [Decimal.digits addr.1.toNat, Decimal.digits addr.2.1.toNat,
      Decimal.digits addr.2.2.1.toNat, Decimal.digits addr.2.2.2.toNat], dot ∉ part := by
    simp [hdot]
  rw [quad, inet_ntoa, List.splitOn_intercalate dot hparts (List.cons_ne_nil _ _)]
  simp [quadByte_digits (UInt8.toNat_lt _)]

theorem inet_ntoa_any {addr : InAddr} (h : inet_ntoa addr = str "0.0.0.0") :
    addr = (0, 0, 0, 0) := by
  have hquad : quad (str "0.0.0.0") = some (0, 0, 0, 0) := by decide
  have haddr := quad_inet_ntoa addr
  rw [h, hquad] at haddr
  exact (Option.some.inj haddr).symm

theorem hostAddr_inet_ntoa (hnumeric : Numeric libc) (addr : InAddr) :
    hostAddr libc (inet_ntoa addr) = some addr := by
  have hnul : Ch.nul ∉ inet_ntoa addr := notMem_inet_ntoa addr (by decide) (by decide)
  unfold hostAddr
  rw [c_str_eq hnul]
  cases hname : libc.gethostbyname (inet_ntoa addr) with
  | none => exact hnumeric.inet_aton addr
  | some name =>
    dsimp only
    split
    · rw [hnumeric.gethostbyname addr name hname]
    · exact hnumeric.inet_aton addr

/-! ## The port -/

theorem ntohs_injective : Function.Injective ntohs := by
  rintro ⟨a, b⟩ ⟨c, d⟩ h
  have hb := b.toNat_lt
  have hd := d.toNat_lt
  simp only [ntohs] at h
  have hhigh : a.toNat = c.toNat := by omega
  have hlow : b.toNat = d.toNat := by omega
  rw [UInt8.toNat_inj.mp hhigh, UInt8.toNat_inj.mp hlow]

theorem ntohs_le (sin_port : Byte × Byte) : ntohs sin_port ≤ 65535 := by
  have hhigh := sin_port.1.toNat_lt
  have hlow := sin_port.2.toNat_lt
  unfold ntohs
  omega

/-! ## The text -/

/-- The text in front of the colon. -/
def hostText (addr : InAddr) : Str :=
  if inet_ntoa addr = str "0.0.0.0" then star else inet_ntoa addr

/-- The text behind it. -/
def portText (myport : Nat) : Str := if myport > 0 then Decimal.digits myport else star

theorem portText_port (address : SockaddrIn) :
    PortText (portText (ntohs address.sin_port)) (ntohs address.sin_port) := by
  unfold portText
  split
  · exact .inr ⟨Decimal.digits_ne_nil _, Decimal.digits_isDigit _, Decimal.value_digits _,
      ntohs_le _⟩
  · next hzero => exact .inl ⟨rfl, Nat.eq_zero_of_not_pos hzero⟩

theorem hostPort_text (address : SockaddrIn) : HostPort (sockaddr_to_str address)
    (hostText address.sin_addr) (portText (ntohs address.sin_port)) where
  join := by
    unfold sockaddr_to_str portText hostText
    dsimp only
    split <;> simp
  host_colon := by
    unfold hostText
    split
    · decide
    · exact notMem_inet_ntoa _ (by decide) (by decide)
  port_colon := by
    intro hmem
    rcases portText_port address with ⟨hstar, _⟩ | ⟨_, hdigits, _⟩
    · rw [hstar] at hmem
      revert hmem
      decide
    · exact absurd (hdigits _ hmem) (by decide)

theorem goodHost_text (libc : Libc) (addr : InAddr) : GoodHost libc (hostText addr) := by
  unfold hostText
  split
  · exact .inl rfl
  · exact .inr ⟨notMem_inet_ntoa addr (by decide) (by decide), .inr (dottedQuad_inet_ntoa addr)⟩

theorem inet_ntoa_ne_star (addr : InAddr) : inet_ntoa addr ≠ star := fun hstar =>
  notMem_inet_ntoa addr (c := 42) (by decide) (by decide) (by rw [hstar]; decide)

theorem read_host (hnumeric : Numeric libc) (addr : InAddr) :
    (if hostText addr = star then some (0, 0, 0, 0) else hostAddr libc (hostText addr))
      = some addr := by
  by_cases hany : inet_ntoa addr = str "0.0.0.0"
  · rw [hostText, if_pos hany, if_pos rfl, inet_ntoa_any hany]
  · rw [hostText, if_neg hany, if_neg (inet_ntoa_ne_star addr), hostAddr_inet_ntoa hnumeric]

theorem read_port (address : SockaddrIn) (port : Str)
    (hport : PortText port (ntohs address.sin_port)) :
    (if port = star then (0, 0) else htons (lexical_cast garbage port)) = address.sin_port := by
  refine ntohs_injective ?_
  rw [ntohs_sin_port, portOf_of_portText hport]

theorem str_to_sockaddr_text (hnumeric : Numeric libc) (hfamily : address.sin_family = AF_INET) :
    str_to_sockaddr libc garbage (sockaddr_to_str address) = .ok address := by
  unfold str_to_sockaddr
  rw [split_eq_iff.mpr (hostPort_text address)]
  dsimp only
  rw [read_host hnumeric, read_port address _ (portText_port address), ← hfamily]

theorem numeric_offline : Numeric offline where
  gethostbyname _ _ h := by cases h
  inet_aton := quad_inet_ntoa

/-- No address but that of every host and any port is written like this. -/
theorem text_any_iff (hfamily : address.sin_family = AF_INET) :
    sockaddr_to_str address = str "*:*" ↔ address = ⟨AF_INET, (0, 0), (0, 0, 0, 0)⟩ := by
  constructor
  · intro htext
    have hpair : HostPort (str "*:*") star star := ⟨by decide, by decide, by decide⟩
    have hany : str_to_sockaddr offline 0 (str "*:*") = .ok ⟨AF_INET, (0, 0), (0, 0, 0, 0)⟩ := by
      rw [str_to_sockaddr, split_eq_iff.mpr hpair]
      rfl
    have hread : str_to_sockaddr offline 0 (sockaddr_to_str address) = .ok address :=
      str_to_sockaddr_text numeric_offline hfamily
    rw [htext, hany] at hread
    exact (Except.ok.inj hread).symm
  · rintro rfl
    decide

/-- The text of an address is in the documented format and is read back as the address, so that
`connect` and `bind` can be given what `get_remote_address` and `get_local_address` return. -/
theorem address_round_trip (hnumeric : Numeric libc) (garbage : UInt16)
    (fails : SockaddrIn → Bool) (address : SockaddrIn) (hfamily : address.sin_family = AF_INET) :
    ∃ text, get_remote_address (.ok address) = .ok text ∧ get_local_address (.ok address) = .ok text
      ∧ WellFormed libc text (ntohs address.sin_port)
      ∧ str_to_sockaddr libc garbage text = .ok address
      ∧ (connect libc garbage fails text).1 = [address]
      ∧ (bind libc garbage fails text).1
        = if address = ⟨AF_INET, (0, 0), (0, 0, 0, 0)⟩ then [] else [address] := by
  have hread : str_to_sockaddr libc garbage (sockaddr_to_str address) = .ok address :=
    str_to_sockaddr_text hnumeric hfamily
  refine ⟨_, rfl, rfl, ⟨_, _, hostPort_text address, goodHost_text libc _, portText_port address⟩,
    hread, ?_, ?_⟩
  · rw [connect, hread]
  · unfold bind
    by_cases hany : address = ⟨AF_INET, (0, 0), (0, 0, 0, 0)⟩
    · rw [if_pos hany, if_neg (not_not.mpr ((text_any_iff hfamily).mpr hany))]
    · rw [if_neg hany, if_pos (fun htext => hany ((text_any_iff hfamily).mp htext)), hread]

/-- The loopback address, at a machine without a name service. -/
theorem address_round_trip_loopback :
    ∃ text, get_remote_address (.ok ⟨AF_INET, (31, 144), (127, 0, 0, 1)⟩) = .ok text
      ∧ get_local_address (.ok ⟨AF_INET, (31, 144), (127, 0, 0, 1)⟩) = .ok text
      ∧ WellFormed offline text 8080
      ∧ str_to_sockaddr offline 0 text = .ok ⟨AF_INET, (31, 144), (127, 0, 0, 1)⟩
      ∧ (connect offline 0 (fun _ => false) text).1 = [⟨AF_INET, (31, 144), (127, 0, 0, 1)⟩]
      ∧ (bind offline 0 (fun _ => false) text).1 = [⟨AF_INET, (31, 144), (127, 0, 0, 1)⟩] := by
  obtain ⟨text, hremote, hlocal, hformed, hread, hconnect, hbind⟩ :=
    address_round_trip numeric_offline 0 (fun _ => false) ⟨AF_INET, (31, 144), (127, 0, 0, 1)⟩ rfl
  exact ⟨text, hremote, hlocal, hformed, hread, hconnect, hbind.trans (if_neg (by decide))⟩

end Nrtb.SockAddr
