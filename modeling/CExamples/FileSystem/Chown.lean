import CExamples.Number.Strtoumax

/-!
# Changing the owner of a file

`file-system/chown/main.c`.  The program passes the numbers given with `-u` and `-g`
to `chown`.  Its two parsers accept the empty string as 0, a negative numeral near
`-2 ^ 64` as the small number it wraps to, and the largest value of the type, which
`chown` takes as an order to leave the id unchanged.
-/

namespace CExamples.FileSystem.Chown

open CExamples.Number
open CExamples.Word

/-- `sizeof(uid_t)` and `sizeof(gid_t)` -/
def sizeofId : Nat :=
  4

/-- `get_uid_t_max` and `get_gid_t_max`: the largest value of an unsigned type of `size`
bytes, as a value of the type of the id. -/
def getIdMax (unsupported : String) (size : Nat) : Except Rejection UInt32 :=
  if size = 1 then .ok (UInt32.ofNat (2 ^ 8 - 1))
  else if size = 2 then .ok (UInt32.ofNat (2 ^ 16 - 1))
  else if size = 4 then .ok (UInt32.ofNat (2 ^ 32 - 1))
  else if size = 8 then .ok (UInt32.ofNat (2 ^ 64 - 1))
  else .error (.stderr unsupported)

def getUidTMax : Except Rejection UInt32 :=
  getIdMax "Unsupported size of uid_t\n" sizeofId

def getGidTMax : Except Rejection UInt32 :=
  getIdMax "Unsupported size of gid_t\n" sizeofId

/-- `parse_uid_t` and `parse_gid_t`, which differ in their messages. -/
def parseId (rejections : Rejections) (max : Except Rejection UInt32) (str : Text) :
    Except Rejection UInt32 := do
  let max ← max
  let parsed ← parseUnsigned rejections max.toUInt64 str
  pure parsed.toUInt32

def uidRejections : Rejections where
  parsing := .usage "Error parsing uid_t."
  invalid := .usage "Invalid characters in input."
  outOfRange := .usage "uid_t value out of range."

def gidRejections : Rejections where
  parsing := .usage "Error parsing gid_t."
  invalid := .usage "Invalid characters in input."
  outOfRange := .usage "gid_t value out of range."

def parseUidT (str : Text) : Except Rejection UInt32 :=
  parseId uidRejections getUidTMax str

def parseGidT (str : Text) : Except Rejection UInt32 :=
  parseId gidRejections getGidTMax str

/-- The arguments of `chown`. -/
structure Call where
  path : Text
  uid : UInt32
  gid : UInt32
  deriving DecidableEq

/-- A required argument. -/
def require (argument : Option Text) (message : String) : Except Rejection Text :=
  match argument with
  | none => .error (.usage message)
  | some text => .ok text

/-- `handle_arguments`, and the call of `chown` that follows it in `main`. -/
def handleArguments (path userId groupId : Option Text) : Except Rejection Call := do
  let path ← require path "The path is required."
  let userId ← require userId "The user id is required."
  let groupId ← require groupId "The group id is required."
  let uid ← parseUidT userId
  let gid ← parseGidT groupId
  pure { path := path, uid := uid, gid := gid }

/-- `(uid_t)-1` and `(gid_t)-1`, which leave the id unchanged. -/
def unchanged : UInt32 :=
  -1

/-- The id is the one that the string denotes. -/
structure Honours (str : Text) (id : UInt32) : Prop where
  digit : ∃ byte ∈ str.bytes, isDigit byte = true
  denotes : Denotes str.bytes id.toNat
  changes : id ≠ unchanged
  root : id = 0 → Denotes str.bytes 0

/-- Whatever `chown` is called with is what the user has typed. -/
def Obeys (path userId groupId : Text) : Prop :=
  ∀ call, handleArguments (some path) (some userId) (some groupId) = .ok call →
    Honours userId call.uid ∧ Honours groupId call.gid

/-- The string passes the tests of the parsers. -/
def Passes (str : Text) : Prop :=
  str.bytes = [] ∨
    ∃ denoted, Denotes str.bytes denoted ∧ denoted.natAbs < 2 ^ 64 ∧ denoted % 2 ^ 64 < 2 ^ 32

/-- The string passes the tests but names no id: it is empty, it denotes the largest
value, or it is a negative numeral that wraps. -/
def Slips (str : Text) : Prop :=
  str.bytes = [] ∨ Denotes str.bytes 4294967295 ∨ WrapsWithin 4294967295 str.bytes

/-! ## One id -/

theorem parseId_eq_ok_iff {rejections : Rejections} {unsupported : String} {str : Text}
    {id : UInt32} :
    parseId rejections (getIdMax unsupported sizeofId) str = .ok id ↔
      ∃ parsed, parseUnsigned rejections 4294967295 str = .ok parsed ∧
        parsed.toNat = id.toNat := by
  have max : getIdMax unsupported sizeofId = .ok 4294967295 := rfl
  rw [max, parseId]
  change (parseUnsigned rejections 4294967295 str).bind _ = _ ↔ _
  cases result : parseUnsigned rejections 4294967295 str with
  | error rejection => simp [Except.bind]
  | ok parsed =>
      have within : parsed.toNat ≤ 4294967295 := parseUnsigned_le result
      have cast : parsed.toUInt32.toNat = parsed.toNat := by
        rw [UInt64.toNat_toUInt32]
        exact Nat.mod_eq_of_lt (by omega)
      simp [Except.bind, pure, Except.pure, ← UInt32.toNat_inj, cast]

section Id

variable {rejections : Rejections} {unsupported : String} {str : Text}

/-- Which strings a parser accepts. -/
theorem exists_parseId_iff :
    (∃ id, parseId rejections (getIdMax unsupported sizeofId) str = .ok id) ↔ Passes str := by
  constructor
  · rintro ⟨id, accepted⟩
    rcases parseUnsigned_returns_iff.mp (parseId_eq_ok_iff.mp accepted) with
      ⟨empty, _⟩ | ⟨denoted, denotes, small, wrapped, _⟩
    · exact Or.inl empty
    · have fits := id.toNat_lt
      exact Or.inr ⟨denoted, denotes, small, by omega⟩
  · intro passes
    have returns : ∃ id : UInt32, ∃ parsed, parseUnsigned rejections 4294967295 str = .ok parsed ∧
        parsed.toNat = id.toNat := by
      rcases passes with empty | ⟨denoted, denotes, small, within⟩
      · exact ⟨0, parseUnsigned_returns_iff.mpr (Or.inl ⟨empty, rfl⟩)⟩
      · have fits : (denoted % 2 ^ 64).toNat < 2 ^ 32 := by omega
        have bound : UInt64.toNat 4294967295 = 4294967295 := rfl
        refine ⟨UInt32.ofNat (denoted % 2 ^ 64).toNat, parseUnsigned_returns_iff.mpr (Or.inr ?_)⟩
        rw [UInt32.toNat_ofNat_of_lt' fits, bound]
        exact ⟨denoted, denotes, small, by omega, by omega⟩
    obtain ⟨id, returned⟩ := returns
    exact ⟨id, parseId_eq_ok_iff.mpr returned⟩

/-- An id that a parser returns is the one that the string denotes, unless the string
slips. -/
theorem honours_iff {id : UInt32}
    (accepted : parseId rejections (getIdMax unsupported sizeofId) str = .ok id) :
    Honours str id ↔ ¬Slips str := by
  obtain ⟨parsed, returned, same⟩ := parseId_eq_ok_iff.mp accepted
  have bound : UInt64.toNat 4294967295 = 4294967295 := rfl
  constructor
  · rintro ⟨digit, denotes, changes, _⟩ (empty | largest | wraps)
    · exact denotes.ne_nil empty
    · apply changes
      apply UInt32.toNat_inj.mp
      exact Int.ofNat_inj.mp (denotes.unique largest)
    · rw [← bound] at wraps
      obtain ⟨parsed', returned', differs⟩ := returns_of_wrapsWithin rejections wraps
      rw [returned] at returned'
      cases returned'
      rw [same] at differs
      exact differs denotes
  · intro noSlip
    have denotes : Denotes str.bytes id.toNat := by
      rw [← same]
      apply denotes_of_returns returned
      · exact fun empty => noSlip (Or.inl empty)
      · exact fun wraps => noSlip (Or.inr (Or.inr wraps))
    constructor
    · obtain ⟨numeral, whole, _⟩ := denotes
      obtain ⟨digit, digits, digits_eq⟩ := List.exists_cons_of_ne_nil numeral.nonempty
      have member : digit ∈ numeral.digits := by
        rw [digits_eq]
        exact List.mem_cons_self
      refine ⟨digit, ?_, numeral.isDigit digit member⟩
      rw [← whole]
      exact List.mem_append_right _ member
    · exact denotes
    · rintro rfl
      exact noSlip (Or.inr (Or.inl denotes))
    · rintro rfl
      exact denotes

end Id

/-! ## The call of `chown` -/

theorem handleArguments_eq_ok_iff {path userId groupId : Text} {call : Call} :
    handleArguments (some path) (some userId) (some groupId) = .ok call ↔
      path = call.path ∧ parseUidT userId = .ok call.uid ∧ parseGidT groupId = .ok call.gid := by
  have ordered : handleArguments (some path) (some userId) (some groupId) =
      (parseUidT userId >>= fun uid => parseGidT groupId >>= fun gid =>
        pure (Call.mk path uid gid)) := rfl
  rw [ordered]
  constructor
  · intro accepted
    rcases bind_eq_ok_iff.mp accepted with ⟨uid, acceptedUser, rest⟩
    rcases bind_eq_ok_iff.mp rest with ⟨gid, acceptedGroup, result⟩
    cases result
    exact ⟨rfl, acceptedUser, acceptedGroup⟩
  · rintro ⟨rfl, acceptedUser, acceptedGroup⟩
    exact bind_eq_ok_iff.mpr ⟨_, acceptedUser, bind_eq_ok_iff.mpr ⟨_, acceptedGroup, rfl⟩⟩

/-- For which strings `chown` is called with what the user has typed, if at all. -/
theorem obeys_iff (path userId groupId : Text) :
    Obeys path userId groupId ↔
      (Passes userId → Passes groupId → ¬Slips userId ∧ ¬Slips groupId) := by
  constructor
  · intro obeys passesUser passesGroup
    obtain ⟨uid, acceptedUser⟩ := exists_parseId_iff.mpr passesUser
    obtain ⟨gid, acceptedGroup⟩ := exists_parseId_iff.mpr passesGroup
    have honours := obeys { path := path, uid := uid, gid := gid }
      (handleArguments_eq_ok_iff.mpr ⟨rfl, acceptedUser, acceptedGroup⟩)
    exact ⟨(honours_iff acceptedUser).mp honours.1, (honours_iff acceptedGroup).mp honours.2⟩
  · intro condition call accepted
    obtain ⟨_, acceptedUser, acceptedGroup⟩ := handleArguments_eq_ok_iff.mp accepted
    have noSlips := condition (exists_parseId_iff.mp ⟨_, acceptedUser⟩)
      (exists_parseId_iff.mp ⟨_, acceptedGroup⟩)
    exact ⟨(honours_iff acceptedUser).mpr noSlips.1, (honours_iff acceptedGroup).mpr noSlips.2⟩

/-- With an empty user id the file `f` is given to root. -/
theorem emptyUserId_givesRoot :
    let path : Text := ⟨[102], by decide⟩
    let userId : Text := ⟨[], by decide⟩
    let groupId : Text := ⟨[49], by decide⟩
    handleArguments (some path) (some userId) (some groupId) =
        .ok { path := path, uid := 0, gid := 1 } ∧
      ¬Obeys path userId groupId := by
  intro path userId groupId
  have accepted : handleArguments (some path) (some userId) (some groupId) =
      .ok { path := path, uid := 0, gid := 1 } := rfl
  refine ⟨accepted, ?_⟩
  intro obeys
  exact (obeys _ accepted).1.denotes.ne_nil rfl

end CExamples.FileSystem.Chown
