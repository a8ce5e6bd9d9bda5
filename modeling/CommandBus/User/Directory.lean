import CommandBus.Bytes.Sha256
import CommandBus.Bytes.Utf8
import CommandBus.Conversion.Error
import CommandBus.Identity
import CommandBus.Text.Blank
import CommandBus.Text.Cut

/-! # Users

A `UserRecord` is a name with authorities and what is kept of a password: a salt, and the digest
of the salt with the password.  A `UserDirectory` finds the record of a name, the last one that
was put in.

`UserRecord.readList` reads the text form of users: entries `name:password:role|role`
between semicolons.  Every record that is made gets a salt of its own, drawn at random; here the
salts are given. -/

namespace CommandBus

open Text

/-- What a password is digested with. -/
abbrev Salt := Vector UInt8 16

/-- A user. -/
structure UserRecord where
  name : String
  salt : Salt
  digest : List UInt8
  authorities : AuthoritySet
  deriving DecidableEq, Repr

namespace UserRecord

/-- The digest of a password behind a salt. -/
def digestOf (salt : Salt) (password : String) : List UInt8 :=
  Bytes.Sha256.digest (salt.toList ++ Bytes.ofText password)

/-- The record of a user with a password. -/
def make (salt : Salt) (name password : String) (authorities : AuthoritySet) : UserRecord :=
  ⟨name, salt, digestOf salt password, authorities⟩

/-- Whether a password is taken for the one of the user: whether it has the same digest. -/
def accepts (user : UserRecord) (candidate : String) : Bool :=
  user.digest == digestOf user.salt candidate

/-- The password that a record was made with is accepted. -/
@[simp] theorem accepts_make (salt : Salt) (name password : String) (authorities : AuthoritySet) :
    (make salt name password authorities).accepts password = true := BEq.rfl

/-- Who the user is once authenticated. -/
def identity (user : UserRecord) : Identity := ⟨user.name, user.authorities⟩

/-- What a user shows of itself: neither salt nor digest. -/
def debugText (user : UserRecord) : String :=
  recordText "UserRecord"
    [("username", quoted user.name),
      ("authorities", braced (user.authorities.names.map Identity.authorityText))] false

/-! ## The text form -/

/-- The error of an entry without a colon. -/
def shapeError (first : List Char) : ConfigurationError :=
  ⟨"user entry '" ++ String.ofList first ++ "' must look like name:password[:ROLES]"⟩

/-- The error of an entry that starts with a colon. -/
def emptyNameError : ConfigurationError := ⟨"user entry with an empty name"⟩

/-- The trimmed pieces between separators that are not empty. -/
def pieces (sep : Char) (cs : List Char) : List (List Char) :=
  ((splitOn sep cs).map trim).filter fun piece => !piece.isEmpty

/-- Read one entry; the record is made with `salt`. -/
def readEntry (salt : Salt) (cs : List Char) : Except ConfigurationError UserRecord :=
  match cutOnce ':' cs with
  | none => .error (shapeError cs)
  | some (name, rest) =>
    if name.isEmpty then .error emptyNameError
    else
      let (password, roles) := (cutOnce ':' rest).getD (rest, [])
      .ok (make salt (String.ofList name) (String.ofList password)
        (AuthoritySet.ofList ((pieces '|' roles).map String.ofList)))

/-- Read entries, or find the first one that is wrong; `salts` has the salt of every record,
    counted from `index`. -/
def readEntries (salts : Nat → Salt) :
    (index : Nat) → List (List Char) → Except ConfigurationError (List UserRecord)
  | _, [] => .ok []
  | index, entry :: rest =>
    match readEntry (salts index) entry with
    | .error e => .error e
    | .ok user =>
      match readEntries salts (index + 1) rest with
      | .error e => .error e
      | .ok users => .ok (user :: users)

/-- Read the text form of users; blank entries are passed over. -/
def readList (salts : Nat → Salt) (s : String) : Except ConfigurationError (List UserRecord) :=
  readEntries salts 0 (pieces ';' s.toList)

end UserRecord

/-- Users by name. -/
abbrev UserDirectory := Entries UserRecord

namespace UserDirectory

/-- Add a user or replace the one of the same name. -/
def add (directory : UserDirectory) (user : UserRecord) : UserDirectory :=
  Entries.insert user.name user directory

/-- The directory of a list of users, the last one of a name remaining. -/
def ofUsers (users : List UserRecord) : UserDirectory := users.foldl add []

def find? (directory : UserDirectory) (name : String) : Option UserRecord :=
  Entries.get? name directory

/-- The names of all users, in ascending order. -/
def names (directory : UserDirectory) : List String := Entries.keys directory

end UserDirectory

end CommandBus
