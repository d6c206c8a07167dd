import CExamples.Program.Array
import CExamples.Word.CString

/-!
# Socket addresses

`convert_address` fills a `struct sockaddr_storage` from an address in text;
`socket_bind`, `socket_connect` and `get_address_to_server` add the port and hand the
beginning of it to the kernel.  The programs of `networking-functions`, `sockets`, `tcp`
and `udp` have these functions with the same bodies.

A storage is its 128 bytes, with the fields where Linux has them.  Numbers of two bytes
are stored in the order of the host; those of the network begin with the high byte.
`inet_pton` and `inet_ntop` are given: the first writes four or sixteen bytes when it
accepts a text, and nothing when it does not.
-/

namespace CExamples.SocketAddress

open CExamples.Program
open CExamples.Word

/-! ## Numbers of two bytes -/

inductive Host
  | littleEndian
  | bigEndian
  deriving DecidableEq, Repr

def lowByte (number : UInt16) : UInt8 :=
  UInt8.ofNat (number.toNat % 256)

def highByte (number : UInt16) : UInt8 :=
  UInt8.ofNat (number.toNat / 256)

/-- The number with these two bytes. -/
def joined (high low : UInt8) : UInt16 :=
  UInt16.ofNat (high.toNat * 256 + low.toNat)

/-- A number in the order of the network. -/
def networkBytes (number : UInt16) : List UInt8 :=
  [highByte number, lowByte number]

namespace Host

/-- A `uint16_t` in memory. -/
def bytes : Host → UInt16 → List UInt8
  | .littleEndian, number => [lowByte number, highByte number]
  | .bigEndian, number => [highByte number, lowByte number]

/-- The `uint16_t` that two bytes of memory hold. -/
def number : Host → (first second : UInt8) → UInt16
  | .littleEndian, low, high => joined high low
  | .bigEndian, high, low => joined high low

/-- `htons` -/
def htons : Host → UInt16 → UInt16
  | .littleEndian, number => joined (lowByte number) (highByte number)
  | .bigEndian, number => number

end Host

theorem toNat_lowByte (number : UInt16) : (lowByte number).toNat = number.toNat % 256 :=
  UInt8.toNat_ofNat_of_lt' (Nat.mod_lt _ (by decide))

theorem toNat_highByte (number : UInt16) : (highByte number).toNat = number.toNat / 256 := by
  have := number.toNat_lt
  exact UInt8.toNat_ofNat_of_lt' (by rw [UInt8.size]; omega)

theorem toNat_joined (high low : UInt8) :
    (joined high low).toNat = high.toNat * 256 + low.toNat := by
  have := high.toNat_lt
  have := low.toNat_lt
  exact UInt16.toNat_ofNat_of_lt' (by rw [UInt16.size]; omega)

@[simp]
theorem highByte_joined (high low : UInt8) : highByte (joined high low) = high := by
  have := low.toNat_lt
  apply UInt8.toNat_inj.mp
  rw [toNat_highByte, toNat_joined]
  omega

@[simp]
theorem lowByte_joined (high low : UInt8) : lowByte (joined high low) = low := by
  have := low.toNat_lt
  apply UInt8.toNat_inj.mp
  rw [toNat_lowByte, toNat_joined]
  omega

@[simp]
theorem joined_bytes (number : UInt16) : joined (highByte number) (lowByte number) = number := by
  apply UInt16.toNat_inj.mp
  rw [toNat_joined, toNat_highByte, toNat_lowByte]
  omega

@[simp]
theorem length_bytes (host : Host) (number : UInt16) : (host.bytes number).length = 2 := by
  cases host <;> rfl

@[simp]
theorem length_networkBytes (number : UInt16) : (networkBytes number).length = 2 :=
  rfl

/-- What `htons` makes of a number is stored in the order of the network. -/
theorem bytes_htons (host : Host) (number : UInt16) :
    host.bytes (host.htons number) = networkBytes number := by
  cases host with
  | littleEndian => simp [Host.bytes, Host.htons, networkBytes]
  | bigEndian => rfl

/-! ## The storage -/

/-- `AF_INET` and `AF_INET6`, whose addresses the programs take. -/
inductive Family
  | inet
  | inet6
  deriving DecidableEq, Repr

namespace Family

def number : Family → UInt16
  | .inet => 2
  | .inet6 => 10

/-- Where `sin_addr` and `sin6_addr` begin. -/
def offset : Family → Nat
  | .inet => 4
  | .inet6 => 8

/-- The sizes of `sin_addr` and of `sin6_addr`. -/
def width : Family → Nat
  | .inet => 4
  | .inet6 => 16

/-- `sizeof(struct sockaddr_in)` and `sizeof(struct sockaddr_in6)` -/
def size : Family → Nat
  | .inet => 16
  | .inet6 => 28

end Family

/-- What `inet_pton` writes. -/
structure Address (family : Family) where
  bytes : List UInt8
  length_eq : bytes.length = family.width

/-- A `struct sockaddr_storage`. -/
structure Storage where
  bytes : List UInt8
  length_eq : bytes.length = 128

namespace Storage

/-- `memset(addr, 0, sizeof(*addr))` -/
def zero : Storage where
  bytes := List.replicate 128 0
  length_eq := List.length_replicate

/-- The bytes `values` are stored from `offset` on. -/
def store (storage : Storage) (offset : Nat) (values : List UInt8)
    (inside : offset + values.length ≤ 128) : Storage where
  bytes := overwrite storage.bytes offset values
  length_eq := by rw [length_overwrite (by rw [storage.length_eq]; exact inside), storage.length_eq]

/-- `sin_addr` or `sin6_addr` is stored. -/
def storeAddress (storage : Storage) {family : Family} (address : Address family) : Storage :=
  storage.store family.offset address.bytes
    (by rw [address.length_eq]; cases family <;> decide)

/-- `addr->ss_family` is stored. -/
def storeFamily (host : Host) (storage : Storage) (family : Family) : Storage :=
  storage.store 0 (host.bytes family.number) (by rw [length_bytes]; decide)

/-- `sin_port` or `sin6_port` is stored. -/
def storePort (host : Host) (storage : Storage) (port : UInt16) : Storage :=
  storage.store 2 (host.bytes port) (by rw [length_bytes]; decide)

theorem bytes_storeAddress (storage : Storage) {family : Family} (address : Address family) :
    (storage.storeAddress address).bytes =
      overwrite storage.bytes family.offset address.bytes :=
  rfl

theorem bytes_storeFamily (host : Host) (storage : Storage) (family : Family) :
    (storage.storeFamily host family).bytes =
      overwrite storage.bytes 0 (host.bytes family.number) :=
  rfl

theorem bytes_storePort (host : Host) (storage : Storage) (port : UInt16) :
    (storage.storePort host port).bytes = overwrite storage.bytes 2 (host.bytes port) :=
  rfl

/-- `addr->ss_family` -/
def ssFamily (host : Host) (storage : Storage) : UInt16 :=
  host.number (storage.bytes.getD 0 0) (storage.bytes.getD 1 0)

/-- The bytes of `sin_addr` or of `sin6_addr`. -/
def address (storage : Storage) (family : Family) : List UInt8 :=
  (storage.bytes.drop family.offset).take family.width

end Storage

/-- `inet_pton`, and `inet_ntop` of a number for the family and of the bytes that it is
pointed at. -/
structure Inet where
  pton : (family : Family) → Text → Option (Address family)
  ntop : UInt16 → List UInt8 → Option (List UInt8)

/-- Why a program ends before it calls `bind`, `connect` or `sendto`. -/
inductive Failure
  /-- `%s is not an IPv4 or an IPv6 address` -/
  | notAnAddress (address : Text)
  /-- `perror("inet_ntop")` -/
  | inetNtop
  /-- `Internal error: addr->ss_family must be AF_INET or AF_INET6, was: %d` -/
  | internal (family : UInt16)
  /-- `Invalid address family: %d` -/
  | invalidFamily (family : UInt16)
  deriving DecidableEq

/-- `convert_address` -/
def convertAddress (inet : Inet) (host : Host) (text : Text) : Except Failure Storage :=
  match inet.pton .inet text with
  | some address => .ok ((Storage.zero.storeAddress address).storeFamily host .inet)
  | none =>
      match inet.pton .inet6 text with
      | some address => .ok ((Storage.zero.storeAddress address).storeFamily host .inet6)
      | none => .error (.notAnAddress text)

/-- What is handed to the kernel, and the text that is printed. -/
structure Handed where
  bytes : List UInt8
  shown : List UInt8
  deriving DecidableEq

/-- `socket_bind` up to `bind`, for one of the two families. -/
def bindAs (inet : Inet) (host : Host) (storage : Storage) (port : UInt16) (family : Family) :
    Except Failure Handed :=
  let named := storage.storePort host (host.htons port)
  match inet.ntop (named.ssFamily host) (named.address family) with
  | some shown => .ok { bytes := named.bytes.take family.size, shown := shown }
  | none => .error .inetNtop

/-- `socket_bind` up to `bind` -/
def socketBind (inet : Inet) (host : Host) (storage : Storage) (port : UInt16) :
    Except Failure Handed :=
  if storage.ssFamily host = Family.inet.number then bindAs inet host storage port .inet
  else if storage.ssFamily host = Family.inet6.number then bindAs inet host storage port .inet6
  else .error (.internal (storage.ssFamily host))

/-- The port is stored, and the address that `connect` gets. -/
def connectAs (host : Host) (storage : Storage) (port : UInt16) (family : Family) : List UInt8 :=
  (storage.storePort host (host.htons port)).bytes.take family.size

/-- The field at which `socket_connect` points `inet_ntop`. -/
def pointed (host : Host) (storage : Storage) : Family :=
  if storage.ssFamily host = Family.inet.number then .inet else .inet6

/-- `socket_connect` up to `connect` -/
def socketConnect (inet : Inet) (host : Host) (storage : Storage) (port : UInt16) :
    Except Failure Handed :=
  match inet.ntop (storage.ssFamily host) (storage.address (pointed host storage)) with
  | none => .error .inetNtop
  | some shown =>
      if storage.ssFamily host = Family.inet.number then
        .ok { bytes := connectAs host storage port .inet, shown := shown }
      else if storage.ssFamily host = Family.inet6.number then
        .ok { bytes := connectAs host storage port .inet6, shown := shown }
      else .error (.invalidFamily (storage.ssFamily host))

/-- `get_address_to_server` -/
def getAddressToServer (host : Host) (storage : Storage) (port : UInt16) : Storage :=
  if storage.ssFamily host = Family.inet.number then
    (storage.storeFamily host .inet).storePort host (host.htons port)
  else if storage.ssFamily host = Family.inet6.number then
    (storage.storeFamily host .inet6).storePort host (host.htons port)
  else storage

/-- `convert_address` of `udp/sendto-recvfrom/client.c`, which stores `addr_len` too. -/
def convertAddressLength (inet : Inet) (host : Host) (text : Text) :
    Except Failure (Storage × Nat) :=
  match inet.pton .inet text with
  | some address =>
      .ok ((Storage.zero.storeAddress address).storeFamily host .inet, Family.inet.size)
  | none =>
      match inet.pton .inet6 text with
      | some address =>
          .ok ((Storage.zero.storeAddress address).storeFamily host .inet6, Family.inet6.size)
      | none => .error (.notAnAddress text)

/-- What a program that binds makes of an address and a port. -/
def bound (inet : Inet) (host : Host) (text : Text) (port : UInt16) : Except Failure Handed := do
  socketBind inet host (← convertAddress inet host text) port

/-- What a program that connects makes of them. -/
def connected (inet : Inet) (host : Host) (text : Text) (port : UInt16) : Except Failure Handed := do
  socketConnect inet host (← convertAddress inet host text) port

/-- What `udp/sendto-recvfrom/client.c` makes of them. -/
def destination (inet : Inet) (host : Host) (text : Text) (port : UInt16) :
    Except Failure (List UInt8) := do
  let (storage, length) ← convertAddressLength inet host text
  pure ((getAddressToServer host storage port).bytes.take length)

/-! ## What the storage holds -/

/-- The zero bytes between the port and the address. -/
def Family.gap (family : Family) : List UInt8 :=
  List.replicate (family.offset - 4) 0

/-- The zero bytes behind the address, in `size` bytes. -/
def Family.padding (family : Family) (size : Nat) : List UInt8 :=
  List.replicate (size - family.offset - family.width) 0

/-- The first `size` bytes of a storage that holds an address of the family, and a
port. -/
def image (host : Host) (family : Family) (port : List UInt8) (address : Address family)
    (size : Nat) : List UInt8 :=
  host.bytes family.number ++ (port ++ (family.gap ++ (address.bytes ++ family.padding size)))

/-- The address that the kernel gets. -/
def sockaddr (host : Host) (family : Family) (address : Address family) (port : UInt16) :
    List UInt8 :=
  image host family (networkBytes port) address family.size

theorem length_sockaddr (host : Host) (family : Family) (address : Address family)
    (port : UInt16) : (sockaddr host family address port).length = family.size := by
  simp only [sockaddr, image, List.length_append, length_bytes, length_networkBytes,
    address.length_eq, Family.gap, Family.padding, List.length_replicate]
  cases family <;> rfl

/-- The storage holds an address of the family, and a port. -/
structure Holds (host : Host) (storage : Storage) (family : Family) (port : List UInt8)
    (address : Address family) : Prop where
  bytes : storage.bytes = image host family port address 128
  port : port.length = 2

section Holds

variable {host : Host} {storage : Storage} {family : Family} {port : List UInt8}
  {address : Address family}

/-- An address and its family are stored among zero bytes. -/
theorem holds_stored (host : Host) (address : Address family) :
    Holds host ((Storage.zero.storeAddress address).storeFamily host family) family [0, 0]
      address where
  port := rfl
  bytes := by
    have width : (List.replicate family.width (0 : UInt8)).length = address.bytes.length := by
      rw [List.length_replicate, address.length_eq]
    have two : [(0 : UInt8), 0].length = (host.bytes family.number).length :=
      (length_bytes host family.number).symm
    have zeros : Storage.zero.bytes = List.replicate family.offset 0 ++
        (List.replicate family.width 0 ++ family.padding 128) := by
      cases family <;> rfl
    have front : List.replicate family.offset (0 : UInt8) = [0, 0] ++ ([0, 0] ++ family.gap) := by
      cases family <;> rfl
    have stored : (Storage.zero.storeAddress address).bytes =
        [] ++ ([0, 0] ++ ([0, 0] ++ (family.gap ++ (address.bytes ++ family.padding 128)))) := by
      rw [Storage.bytes_storeAddress, zeros,
        overwrite_append (family.padding 128) List.length_replicate width, front]
      simp only [List.append_assoc, List.nil_append]
    rw [Storage.bytes_storeFamily, stored, overwrite_append _ List.length_nil two]
    rfl

/-- The number of the family is read back. -/
theorem Holds.ssFamily (holds : Holds host storage family port address) :
    storage.ssFamily host = family.number := by
  rw [Storage.ssFamily, holds.bytes]
  cases host <;> exact joined_bytes family.number

/-- Storing the family again changes nothing. -/
theorem Holds.storeFamily (holds : Holds host storage family port address) :
    Holds host (storage.storeFamily host family) family port address where
  port := holds.port
  bytes := by
    have stored : storage.bytes = [] ++ image host family port address 128 := holds.bytes
    rw [Storage.bytes_storeFamily, stored, image, overwrite_append _ List.length_nil rfl]
    rfl

/-- The port is stored in the order of the network. -/
theorem Holds.storePort (holds : Holds host storage family port address) (number : UInt16) :
    Holds host (storage.storePort host (host.htons number)) family (networkBytes number)
      address where
  port := rfl
  bytes := by
    rw [Storage.bytes_storePort, holds.bytes, bytes_htons, image,
      overwrite_append _ (length_bytes host family.number) holds.port]
    rfl

/-- The address is read back. -/
theorem Holds.address_eq (holds : Holds host storage family port address) :
    storage.address family = address.bytes := by
  have position : (host.bytes family.number ++ (port ++ family.gap)).length = family.offset := by
    rw [List.length_append, List.length_append, length_bytes, holds.port, Family.gap,
      List.length_replicate]
    cases family <;> rfl
  have split : storage.bytes = host.bytes family.number ++ (port ++ family.gap) ++
      (address.bytes ++ family.padding 128) := by
    rw [holds.bytes, image]
    simp only [List.append_assoc]
  rw [Storage.address, split, ← position, List.drop_left, ← address.length_eq, List.take_left]

/-- The beginning of the storage is handed to the kernel. -/
theorem Holds.take {number : UInt16}
    (holds : Holds host storage family (networkBytes number) address) :
    storage.bytes.take family.size = sockaddr host family address number := by
  have split : storage.bytes =
      sockaddr host family address number ++ List.replicate (128 - family.size) 0 := by
    rw [holds.bytes, sockaddr, image, image]
    simp only [List.append_assoc]
    cases family <;> rfl
  rw [split, ← length_sockaddr host family address number, List.take_left]

end Holds

/-! ## What the kernel reads -/

/-- What an address names. -/
structure Name where
  family : Family
  address : Address family
  port : UInt16

/-- The address in the bytes of a `struct sockaddr_in` or a `struct sockaddr_in6`. -/
def addressIn (family : Family) (bytes : List UInt8) (long : family.size ≤ bytes.length) :
    Address family where
  bytes := (bytes.drop family.offset).take family.width
  length_eq := by
    rw [List.length_take, List.length_drop]
    cases family with
    | inet =>
        have : 16 ≤ bytes.length := long
        change min 4 (bytes.length - 4) = 4
        omega
    | inet6 =>
        have : 28 ≤ bytes.length := long
        change min 16 (bytes.length - 8) = 16
        omega

/-- How the kernel reads an address of one of the families. -/
def readAs (family : Family) (bytes : List UInt8) : Option Name :=
  if long : family.size ≤ bytes.length then
    some
      { family := family
        address := addressIn family bytes long
        port := joined (bytes.getD 2 0) (bytes.getD 3 0) }
  else none

/-- How the kernel reads an address. -/
def read (host : Host) (bytes : List UInt8) : Option Name :=
  let number := host.number (bytes.getD 0 0) (bytes.getD 1 0)
  if number = Family.inet.number then readAs .inet bytes
  else if number = Family.inet6.number then readAs .inet6 bytes
  else none

/-- What a text and a port name; IPv4 is tried first. -/
def Inet.name (inet : Inet) (text : Text) (port : UInt16) : Option Name :=
  match inet.pton .inet text with
  | some address => some ⟨.inet, address, port⟩
  | none => (inet.pton .inet6 text).map fun address => ⟨.inet6, address, port⟩

/-- The address for a name. -/
def Name.sockaddr (host : Host) (name : Name) : List UInt8 :=
  SocketAddress.sockaddr host name.family name.address name.port

/-- The text that is printed for a name. -/
def Inet.shown (inet : Inet) (name : Name) : Option (List UInt8) :=
  inet.ntop name.family.number name.address.bytes

@[ext]
theorem Address.ext {family : Family} {address other : Address family}
    (same : address.bytes = other.bytes) : address = other := by
  cases address
  cases other
  cases same
  rfl

theorem readAs_sockaddr (host : Host) (family : Family) (address : Address family)
    (port : UInt16) :
    readAs family (sockaddr host family address port) = some ⟨family, address, port⟩ := by
  have long : family.size ≤ (sockaddr host family address port).length :=
    (length_sockaddr host family address port).ge
  have same : addressIn family _ long = address := by
    apply Address.ext
    have position :
        (host.bytes family.number ++ (networkBytes port ++ family.gap)).length =
          family.offset := by
      rw [List.length_append, List.length_append, length_bytes, length_networkBytes, Family.gap,
        List.length_replicate]
      cases family <;> rfl
    have split : sockaddr host family address port =
        host.bytes family.number ++ (networkBytes port ++ family.gap) ++
          (address.bytes ++ family.padding family.size) := by
      rw [sockaddr, image]
      simp only [List.append_assoc]
    change ((sockaddr host family address port).drop family.offset).take family.width = _
    rw [split, ← position, List.drop_left, ← address.length_eq, List.take_left]
  rw [readAs, dif_pos long, same]
  cases host <;> exact congrArg (fun number => some (Name.mk family address number)) (joined_bytes port)

/-- The kernel reads an address as what it is for. -/
theorem read_sockaddr (host : Host) (name : Name) :
    read host (name.sockaddr host) = some name := by
  rcases name with ⟨family, address, port⟩
  have number : host.number ((sockaddr host family address port).getD 0 0)
      ((sockaddr host family address port).getD 1 0) = family.number := by
    cases host <;> exact joined_bytes family.number
  rw [read, Name.sockaddr, number, ← readAs_sockaddr host]
  cases family <;> rfl

/-! ## What the programs hand to the kernel -/

section Programs

variable {inet : Inet} {host : Host} {text : Text} {port : UInt16} {name : Name}

theorem Inet.name_port (named : inet.name text port = some name) : name.port = port := by
  cases accepted : inet.pton .inet text with
  | some address =>
      rw [Inet.name, accepted] at named
      cases named
      rfl
  | none =>
      rw [Inet.name, accepted] at named
      rcases Option.map_eq_some_iff.mp named with ⟨address, _, rfl⟩
      rfl

/-- `convert_address` stores what the text names. -/
theorem convertAddress_of_name (host : Host) (named : inet.name text port = some name) :
    ∃ storage, convertAddress inet host text = .ok storage ∧
      convertAddressLength inet host text = .ok (storage, name.family.size) ∧
      Holds host storage name.family [0, 0] name.address := by
  cases accepted : inet.pton .inet text with
  | some address =>
      rw [Inet.name, accepted] at named
      cases named
      rw [convertAddress, convertAddressLength, accepted]
      exact ⟨_, rfl, rfl, holds_stored host address⟩
  | none =>
      rw [Inet.name, accepted] at named
      rcases Option.map_eq_some_iff.mp named with ⟨address, acceptedLater, rfl⟩
      rw [convertAddress, convertAddressLength, accepted, acceptedLater]
      exact ⟨_, rfl, rfl, holds_stored host address⟩

theorem convertAddress_of_none (host : Host) (unnamed : inet.name text port = none) :
    convertAddress inet host text = .error (.notAnAddress text) ∧
      convertAddressLength inet host text = .error (.notAnAddress text) := by
  cases accepted : inet.pton .inet text with
  | some address =>
      rw [Inet.name, accepted] at unnamed
      cases unnamed
  | none =>
      rw [Inet.name, accepted] at unnamed
      rw [convertAddress, convertAddressLength, accepted, Option.map_eq_none_iff.mp unnamed]
      exact ⟨rfl, rfl⟩

variable {storage : Storage} {family : Family} {address : Address family}

/-- The port goes into the storage and the address comes out of it as it is. -/
theorem bindAs_of_holds (inet : Inet) (port : UInt16)
    (holds : Holds host storage family [0, 0] address) :
    bindAs inet host storage port family =
      match inet.ntop family.number address.bytes with
      | some shown => .ok { bytes := sockaddr host family address port, shown := shown }
      | none => .error .inetNtop := by
  have named := holds.storePort port
  rw [bindAs, named.ssFamily, named.address_eq, named.take]

theorem socketBind_of_holds (inet : Inet) (port : UInt16)
    (holds : Holds host storage family [0, 0] address) :
    socketBind inet host storage port =
      match inet.ntop family.number address.bytes with
      | some shown => .ok { bytes := sockaddr host family address port, shown := shown }
      | none => .error .inetNtop := by
  rw [← bindAs_of_holds inet port holds, socketBind, holds.ssFamily]
  cases family <;> rfl

/-- `socket_connect` makes the same of a storage as `socket_bind`. -/
theorem socketConnect_of_holds (inet : Inet) (port : UInt16)
    (holds : Holds host storage family [0, 0] address) :
    socketConnect inet host storage port = socketBind inet host storage port := by
  have points : pointed host storage = family := by
    rw [pointed, holds.ssFamily]
    cases family <;> rfl
  have taken := (holds.storePort port).take
  rw [socketBind_of_holds inet port holds, socketConnect, points, holds.ssFamily,
    holds.address_eq]
  cases inet.ntop family.number address.bytes with
  | none => rfl
  | some shown =>
      cases family <;> exact congrArg (fun bytes => Except.ok (Handed.mk bytes shown)) taken

theorem getAddressToServer_of_holds (port : UInt16)
    (holds : Holds host storage family [0, 0] address) :
    (getAddressToServer host storage port).bytes.take family.size =
      sockaddr host family address port := by
  rw [getAddressToServer, holds.ssFamily]
  cases family <;> exact (holds.storeFamily.storePort port).take

/-- What `bind` gets, and what is printed. -/
theorem bound_eq (inet : Inet) (host : Host) (text : Text) (port : UInt16) :
    bound inet host text port =
      match inet.name text port with
      | none => .error (.notAnAddress text)
      | some name =>
          match inet.shown name with
          | none => .error .inetNtop
          | some shown => .ok { bytes := name.sockaddr host, shown := shown } := by
  cases named : inet.name text port with
  | none =>
      rw [bound, (convertAddress_of_none host named).1]
      rfl
  | some name =>
      rcases convertAddress_of_name host named with ⟨storage, converted, _, holds⟩
      have portEq := Inet.name_port named
      rw [bound, converted]
      change socketBind inet host storage port = _
      rw [socketBind_of_holds inet port holds]
      simp only [Inet.shown, Name.sockaddr, portEq]
      cases inet.ntop name.family.number name.address.bytes <;> rfl

theorem connected_eq (inet : Inet) (host : Host) (text : Text) (port : UInt16) :
    connected inet host text port = bound inet host text port := by
  cases named : inet.name text port with
  | none =>
      rw [bound, connected, (convertAddress_of_none host named).1]
      rfl
  | some name =>
      rcases convertAddress_of_name host named with ⟨storage, converted, _, holds⟩
      rw [bound, connected, converted]
      exact socketConnect_of_holds inet port holds

/-- What `sendto` gets. -/
theorem destination_eq (inet : Inet) (host : Host) (text : Text) (port : UInt16) :
    destination inet host text port =
      match inet.name text port with
      | none => .error (.notAnAddress text)
      | some name => .ok (name.sockaddr host) := by
  cases named : inet.name text port with
  | none =>
      rw [destination, (convertAddress_of_none host named).2]
      rfl
  | some name =>
      rcases convertAddress_of_name host named with ⟨storage, _, converted, holds⟩
      have portEq := Inet.name_port named
      rw [destination, converted]
      simp only [Name.sockaddr, portEq]
      change Except.ok ((getAddressToServer host storage port).bytes.take name.family.size) = _
      rw [getAddressToServer_of_holds port holds]

end Programs

/-- What the programs of one host promise of the addresses that they use. -/
structure Meets (inet : Inet) (host : Host) : Prop where
  /-- The address that is bound is read as what the text and the port name. -/
  binds : ∀ text port handed, bound inet host text port = .ok handed →
    ∃ name, inet.name text port = some name ∧ read host handed.bytes = some name ∧
      inet.shown name = some handed.shown
  /-- A program ends for one of two reasons, and never because of the family. -/
  fails : ∀ text port reason, bound inet host text port = .error reason ↔
    reason = .notAnAddress text ∧ inet.name text port = none ∨
      reason = .inetNtop ∧ ∃ name, inet.name text port = some name ∧ inet.shown name = none
  /-- The programs that connect use the same addresses, and end for the same reasons. -/
  connects : ∀ text port, connected inet host text port = bound inet host text port
  /-- So does the one that sends, which does not print the address. -/
  sends : ∀ text port bytes, destination inet host text port = .ok bytes ↔
    ∃ name, inet.name text port = some name ∧ bytes = name.sockaddr host ∧
      read host bytes = some name
  /-- Two programs meet exactly if their texts and ports name the same. -/
  meet : ∀ server serverPort client clientPort handed bytes,
    bound inet host server serverPort = .ok handed →
    destination inet host client clientPort = .ok bytes →
    (bytes = handed.bytes ↔ inet.name client clientPort = inet.name server serverPort)

theorem bound_eq_ok {inet : Inet} {host : Host} {text : Text} {port : UInt16} {handed : Handed}
    (binds : bound inet host text port = .ok handed) :
    ∃ name, inet.name text port = some name ∧ inet.shown name = some handed.shown ∧
      handed.bytes = name.sockaddr host := by
  rw [bound_eq] at binds
  split at binds
  next => cases binds
  next name named =>
    split at binds
    next => cases binds
    next shown shownEq =>
      cases binds
      exact ⟨name, named, shownEq, rfl⟩

theorem destination_eq_ok {inet : Inet} {host : Host} {text : Text} {port : UInt16}
    {bytes : List UInt8} (sends : destination inet host text port = .ok bytes) :
    ∃ name, inet.name text port = some name ∧ bytes = name.sockaddr host := by
  rw [destination_eq] at sends
  split at sends
  next => cases sends
  next name named =>
    cases sends
    exact ⟨name, named, rfl⟩

theorem addresses_meet (inet : Inet) (host : Host) : Meets inet host where
  binds text port handed binds := by
    rcases bound_eq_ok binds with ⟨name, named, shown, bytes⟩
    exact ⟨name, named, by rw [bytes, read_sockaddr], shown⟩
  fails text port reason := by
    rw [bound_eq]
    cases named : inet.name text port with
    | none => simp [eq_comm]
    | some name =>
        cases shown : inet.shown name with
        | none => simp [shown, eq_comm]
        | some text => simp [shown]
  connects := connected_eq inet host
  sends text port bytes := by
    constructor
    · intro sends
      rcases destination_eq_ok sends with ⟨name, named, rfl⟩
      exact ⟨name, named, rfl, read_sockaddr host name⟩
    · rintro ⟨name, named, rfl, _⟩
      rw [destination_eq, named]
  meet server serverPort client clientPort handed bytes binds sends := by
    rcases bound_eq_ok binds with ⟨name, named, _, bound⟩
    rcases destination_eq_ok sends with ⟨other, otherNamed, rfl⟩
    rw [bound, named, otherNamed]
    constructor
    · intro same
      rw [← read_sockaddr host other, same, read_sockaddr]
    · intro same
      rw [Option.some.inj same]

end CExamples.SocketAddress
