import ChapterLayout.Toml.Entries
import ChapterLayout.Toml.Quote
import ChapterLayout.Toml.Scalar

/-! # TOML documents

`Toml.read` reads a document into the entries of its top table. A table can be declared once, and
what an array or inline table holds cannot be changed later; `Declared` keeps track of both. -/

namespace ChapterLayout.Toml

/-! ## Values -/

/-- A value that is no string, array or inline table. -/
def scalar (s : Text) : Except Fault (Value × Text) :=
  if Text.startsWith s "true".toList then .ok (.boolean true, s.drop 4)
  else if Text.startsWith s "false".toList then .ok (.boolean false, s.drop 5)
  else
    match moment? s with
    | some (.ok value, rest) => .ok (value, rest)
    | some (.error flaw, _) => fail flaw s
    | none =>
      match basedNumber? s with
      | some found => .ok found
      | none =>
        match decimalNumber? s with
        | some (.ok value, rest) => .ok (value, rest)
        | some (.error flaw, _) => fail flaw s
        | none =>
          match namedNumber? s with
          | some found => .ok found
          | none => fail .invalidValue s

/-- Whether a value holds others, which cannot be changed from outside. -/
def isClosed : Value → Bool
  | .list _ => true
  | .table _ => true
  | _ => false

/-- Whether one of the given keys leads to the key or to a table around it. -/
def covers (keys : List Key) (key : Key) : Bool := keys.any (·.isPrefixOf key)

mutual

/-- The value at the start of a text. The number `fuel` bounds the number of its parts. -/
def valueFrom : (fuel : Nat) → Text → Except Fault (Value × Text)
  | 0, s => fail .invalidValue s
  | fuel + 1, s =>
    match s with
    | '"' :: _ => (string s).map fun (t, rest) => (.text t, rest)
    | '\x27' :: _ => (string s).map fun (t, rest) => (.text t, rest)
    | '[' :: s => do
      let s ← skipComments s
      match s with
      | ']' :: s => return (.list [], s)
      | s => itemsFrom fuel [] s
    | '\x7b' :: s =>
      match skipBlanks s with
      | '\x7d' :: s => .ok (.table [], s)
      | s => inlineFrom fuel [] [] s
    | s => scalar s

/-- The items of an array from the next one on, after those read before. -/
def itemsFrom : (fuel : Nat) → List Value → Text → Except Fault (Value × Text)
  | 0, _, s => fail .unclosedArray s
  | fuel + 1, items, s => do
    let (value, s) ← valueFrom fuel s
    let items := items ++ [value]
    let s ← skipComments s
    match s with
    | ']' :: s => return (.list items, s)
    | ',' :: s => do
      let s ← skipComments s
      match s with
      | ']' :: s => return (.list items, s)
      | s => itemsFrom fuel items s
    | s => fail .unclosedArray s

/-- A key, an equals sign and a value. -/
def pairFrom : (fuel : Nat) → Text → Except Fault ((Key × Value) × Text)
  | 0, s => fail .invalidValue s
  | fuel + 1, s => do
    let (key, s) ← key s
    match s with
    | '=' :: s => do
      let (value, s) ← valueFrom fuel (skipBlanks s)
      return ((key, value), s)
    | s => fail .equalsMissing s

/-- The entries of an inline table from the next one on, after those read before. The keys `closed`
lead to values that cannot be changed. -/
def inlineFrom : (fuel : Nat) → (closed : List Key) → Entries → Text → Except Fault (Value × Text)
  | 0, _, _, s => fail .unclosedTable s
  | fuel + 1, closed, entries, s => do
    let ((key, value), s) ← pairFrom fuel s
    if covers closed key then throw ⟨.immutable key, s⟩
    let name := key.getLastD []
    match Entries.update? false some key.dropLast entries with
    | none => fail .overwritten s
    | some _ =>
      match Entries.update? false (Entries.add? name value) key.dropLast entries with
      | none => fail (.duplicateName name) s
      | some entries =>
        match skipBlanks s with
        | '\x7d' :: s => return (.table entries, s)
        | ',' :: s =>
          inlineFrom fuel (if isClosed value then key :: closed else closed) entries (skipBlanks s)
        | s => fail .unclosedTable s

end

/-- A key, an equals sign and a value. -/
def pair (s : Text) : Except Fault ((Key × Value) × Text) := pairFrom (2 * s.length + 2) s

/-! ## Statements -/

/-- What the statements read so far say about the tables of a document. -/
structure Declared where
  /-- The keys of tables that no header may declare again. -/
  explicit : List Key := []
  /-- The keys of arrays and inline tables. -/
  closed : List Key := []
  /-- The keys of tables that keys with points opened since the last header. -/
  pending : List Key := []

/-- What the statements read so far make. -/
structure Progress where
  entries : Entries := []
  /-- The key of the table that entries are added to. -/
  header : Key := []
  declared : Declared := {}

namespace Progress

/-- The progress with the tables opened by keys with points closed for headers. -/
def endSection (progress : Progress) : Progress :=
  let declared := progress.declared
  { progress with declared :=
    { declared with explicit := declared.pending ++ declared.explicit, pending := [] } }

/-- Reads the header of a table, after its bracket. -/
def tableHeader (progress : Progress) (s : Text) : Except Fault (Progress × Text) := do
  let (key, s) ← key (skipBlanks s)
  let declared := progress.declared
  if declared.explicit.contains key || covers declared.closed key then
    throw ⟨.declaredTwice key, s⟩
  match Entries.update? true some key progress.entries with
  | none => fail .overwritten s
  | some entries =>
    match s with
    | ']' :: s =>
      let declared := { declared with explicit := key :: declared.explicit }
      return ({ entries, header := key, declared }, s)
    | s => fail .tableHeaderOpen s

/-- Reads the header of one more table in a list, after its two brackets. What was declared about
the tables under the key concerned the table before it. -/
def listHeader (progress : Progress) (s : Text) : Except Fault (Progress × Text) := do
  let (key, s) ← key (skipBlanks s)
  let declared := progress.declared
  if covers declared.closed key then throw ⟨.immutable key, s⟩
  let name := key.getLastD []
  match Entries.update? true (Entries.addTable? name) key.dropLast progress.entries with
  | none => fail .overwritten s
  | some entries =>
    match s with
    | ']' :: ']' :: s =>
      let outside (other : Key) := !key.isPrefixOf other
      let declared := { declared with
        explicit := key :: declared.explicit.filter outside
        closed := declared.closed.filter outside }
      return ({ entries, header := key, declared }, s)
    | s => fail .listHeaderOpen s

/-- The keys of the tables between the header and the last name of a key with points. -/
def between (header key : Key) : List Key :=
  (List.range (key.length - 1)).map fun n => header ++ key.take (n + 1)

/-- Reads an entry of the open table. -/
def entry (progress : Progress) (s : Text) : Except Fault (Progress × Text) := do
  let ((key, value), s) ← pair s
  let declared := progress.declared
  let opened := between progress.header key
  match opened.find? declared.explicit.contains with
  | some key => fail (.redefined key) s
  | none =>
    let parent := progress.header ++ key.dropLast
    if covers declared.closed parent then throw ⟨.immutable parent, s⟩
    match Entries.update? true (Entries.add? (key.getLastD []) value) parent progress.entries with
    | none => fail .overwritten s
    | some entries =>
      let full := progress.header ++ key
      let declared := { declared with
        pending := opened ++ declared.pending
        closed := if isClosed value then full :: declared.closed else declared.closed }
      return ({ progress with entries, declared }, s)

/-- Reads a statement, which may be empty, up to the comment or line end behind it. -/
def statement (progress : Progress) : Text → Except Fault (Progress × Text)
  | '[' :: '[' :: s => progress.endSection.listHeader s
  | '[' :: s => progress.endSection.tableHeader s
  | [] => .ok (progress, [])
  | c :: s =>
    if startsName c then progress.entry (c :: s)
    else if c == '\n' || c == '#' then .ok (progress, c :: s)
    else fail .invalidStatement (c :: s)

/-- Reads statements to the end of a document. The number `fuel` bounds the number of lines. -/
def statements : (fuel : Nat) → Progress → Text → Except Fault Progress
  | 0, progress, _ => .ok progress
  | fuel + 1, progress, s => do
    let (progress, s) ← progress.statement (skipBlanks s)
    let s ← skipComment (skipBlanks s)
    match s with
    | [] => return progress
    | '\n' :: s => statements fuel progress s
    | s => throw ⟨.lineContinues, s⟩

end Progress

/-- The document with its line ends written as line feeds. -/
def unifyLineEnds : Text → Text
  | [] => []
  | '\r' :: '\n' :: s => '\n' :: unifyLineEnds s
  | c :: s => c :: unifyLineEnds s

/-- The entries of the top table of a document. -/
def read (document : Text) : Except Fault Entries :=
  let s := unifyLineEnds document
  (Progress.statements (s.length + 1) {} s).map (·.entries)

/-- What a fault in a document says. -/
def faultMessage (document : Text) (fault : Fault) : Text := fault.message (unifyLineEnds document)

end ChapterLayout.Toml
