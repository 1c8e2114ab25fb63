import ContentSchema.Files.Path
import ContentSchema.Number.Reading
import ContentSchema.Text.Word
import ContentSchema.Value.Display

/-!
# Addresses of databases

An address names a dialect and, behind `://`, what the dialect needs to find the database: a user, a
host with a number, a place, and options.  The one dialect that is understood here keeps a database
in a file; its addresses have a place only.
-/

namespace ContentSchema

/-- The parts of an address. -/
structure Address where
  /-- The dialect, perhaps with a driver behind a plus sign. -/
  dialect : List Char
  /-- Whether a user is named. -/
  hasUser : Bool
  /-- Whether a host is named. -/
  hasHost : Bool
  /-- What should be a number, behind the colon of the host; empty if there is nothing. -/
  number : List Char
  /-- The place, empty if none is named. -/
  place : List Char
  /-- Whether there are options. -/
  hasOptions : Bool
deriving DecidableEq, Repr

/-- Why an address leads to no database. -/
inductive AddressFault where
  /-- It has no dialect. -/
  | malformed
  /-- There is no number behind the colon of its host. -/
  | badNumber (reason : String)
  /-- Nobody knows the dialect. -/
  | unknownDialect (dialect : String)
  /-- The dialect has a file for a database, and the address names a user or a host. -/
  | notFile (address : String)
  /-- Nothing is installed for the dialect. -/
  | missingDriver (name : String)
  /-- It has options, which are not understood here. -/
  | options
  /-- A null character stands in the path of the file. -/
  | nullByte (path : Path)
deriving DecidableEq, Repr

namespace Address

/-- What stands in front of a character that must come. -/
def before? (stop : Char) (cs : List Char) : Option (List Char × List Char) :=
  match cs.span (· ≠ stop) with
  | (head, _ :: rest) => some (head, rest)
  | (_, []) => none

/-- Whether there is a user in front of `@`, with a password behind a colon, and what follows.  A
user has neither colons nor slashes; a password ends at the first `@`, a user without one at the
last. -/
def splitUser (cs : List Char) : Option (Bool × List Char) :=
  let user := cs.takeWhile fun c => c ≠ ':' ∧ c ≠ '/'
  let rest := cs.drop user.length
  let alone? : Option (Bool × List Char) := do
    let (behind, user) ← before? '@' user.reverse
    return (!user.isEmpty, behind.reverse ++ rest)
  match rest with
  | ':' :: behind =>
    match before? '@' behind with
    | some (password, rest) => some (!user.isEmpty || !password.isEmpty, rest)
    | none => alone?
  | _ => alone?

/-- Whether there is a host, what should be a number behind its colon, and what follows.  A host in
brackets ends at the last one that closes. -/
def splitHost (cs : List Char) : Bool × List Char × List Char :=
  let isEnd (c : Char) : Bool := c = '/' || c = '?'
  let plain := cs.span fun c => !isEnd c && c ≠ ':'
  let (host, rest) := match cs with
    | '[' :: inner =>
      let (inside, rest) := inner.span fun c => !isEnd c
      match before? ']' inside.reverse with
      | some (behind, host@(_ :: _)) => (host, behind.reverse ++ rest)
      | _ => plain
    | _ => plain
  match rest with
  | ':' :: behind =>
    let (number, rest) := behind.span fun c => !isEnd c
    (!host.isEmpty, number, rest)
  | _ => (!host.isEmpty, [], rest)

/-- Reads an address. -/
def ofText? (s : String) : Option Address := do
  let (dialect, rest) := s.toList.span fun c => Text.isWordChar c || c = '+'
  if dialect.isEmpty then none
  let rest ← Text.dropStart? "://".toList rest
  let (hasUser, rest) := (splitUser rest).getD (false, rest)
  let (hasHost, number, rest) := splitHost rest
  let (place, rest) := match rest with
    | '/' :: behind => behind.span (· ≠ '?')
    | _ => ([], rest)
  return ⟨dialect, hasUser, hasHost, number, place, 1 < rest.length⟩

/-- Reads a number behind the colon of a host: digits of any script, with blanks around them, a sign
in front and single underscores among them. -/
def readNumber (cs : List Char) : Except String Int :=
  let (negative, ds) :=
    takeSign (Text.dropEndWhile Text.isWhiteSpace (cs.dropWhile Text.isWhiteSpace))
  let ds := (withoutUnderscores? ds).getD ds
  match if ds.isEmpty then none else Text.naturalOf? ds with
  | none =>
    let shown := (displayText (String.ofList cs)).toList.take 200
    .error ("invalid literal for int() with base 10: " ++ String.ofList shown)
  | some n =>
    if maxDigits < ds.length then .error (digitLimitMessage ds.length)
    else .ok (if negative then -n else n)

/-- Whether an address names a host or a number other than zero behind its colon. -/
def namesHost (a : Address) : Except AddressFault Bool :=
  if a.number = [] then .ok a.hasHost
  else
    match readNumber a.number with
    | .error reason => .error (.badNumber reason)
    | .ok n => .ok (a.hasHost || n ≠ 0)

/-- The dialects for which nothing is installed, with the driver that each takes if none is
named. -/
def otherDialects : List (String × String) := [
  ("postgresql", "psycopg"), ("mysql", "MySQLdb"), ("mariadb", "MySQLdb"), ("oracle", "oracledb"),
  ("mssql", "pyodbc")]

/-- The file of the database behind an address; `none` if the database is kept in no file. -/
def file (s : String) : Except AddressFault (Option Path) :=
  match ofText? s with
  | none => .error .malformed
  | some a => do
    let hasHost ← a.namesHost
    let dialect := String.ofList (a.dialect.takeWhile (· ≠ '+'))
    let driver := String.ofList ((a.dialect.dropWhile (· ≠ '+')).tail)
    if dialect = "sqlite" ∧ (driver = "" ∨ driver = "pysqlite") then
      if a.hasUser ∨ hasHost then .error (.notFile s)
      else if a.hasOptions then .error .options
      else if a.place = [] ∨ a.place = ":memory:".toList then .ok none
      else
        let p := Path.ofText (String.ofList a.place)
        if p.holdsNull then .error (.nullByte p) else .ok (some p)
    else
      match otherDialects.lookup dialect with
      | some standard => .error (.missingDriver (if driver = "" then standard else driver))
      | none =>
        let shown := a.dialect.map fun c => if c = '+' then '.' else c
        .error (.unknownDialect (String.ofList shown))

end Address

end ContentSchema
