import SourceRecovery.Command.Grammar
import SourceRecovery.Path
import SourceRecovery.Text.Alphanumeric

/-!
Reading arguments by a grammar. Every argument is first taken by itself as a plain word, a flag or
the separator, after which all words are plain. Then flags take their values and the operand is
found; what is left over is reported by the caller.
-/
namespace SourceRecovery.Command

/-- A flag as it was written: by one letter or by a long name, with the text attached to it. -/
structure Use where
  flag : Flag
  short : Bool
  attached : Option String
  deriving DecidableEq, Repr

inductive Word where
  | plain
  | separator
  | flag (u : Use)
  | unknown
  deriving DecidableEq, Repr

def isShort (name : String) : Bool := name.toList[1]? ≠ some '-'

def splitAtEquals (text : String) : String × Option String :=
  let before := text.toList.takeWhile (· ≠ '=')
  match text.toList.drop before.length with
  | [] => (text, none)
  | _ :: after => (String.ofList before, some (String.ofList after))

/-- A minus sign with decimal digits, perhaps with a point among or in front of them. A line break
may follow. -/
def isNegativeNumber (text : String) : Bool :=
  match text.toList with
  | '-' :: rest =>
    match segments (· == '.') (if rest.getLast? = some '\n' then rest.dropLast else rest) with
    | [digits] => digits ≠ [] && digits.all isDecimalDigit
    | [before, after] => after ≠ [] && before.all isDecimalDigit && after.all isDecimalDigit
    | _ => false
  | _ => false

/-- The flags that an argument may mean: a letter with text attached, or the beginning of a long
name. -/
def candidates (g : Grammar) (text : String) : List (String × Use) :=
  if isShort text then
    (g.names.filter fun (name, _) => name.toList = text.toList.take 2).map fun (name, flag) =>
      (name, ⟨flag, true, some (String.ofList (text.toList.drop 2))⟩)
  else
    let (start, attached) := splitAtEquals text
    (g.names.filter fun (name, _) => start.toList.isPrefixOf name.toList).map fun (name, flag) =>
      (name, ⟨flag, false, attached⟩)

def exactUse? (g : Grammar) (text : String) : Option Use :=
  match g.flag? text with
  | some flag => some ⟨flag, isShort text, none⟩
  | none =>
    match splitAtEquals text with
    | (name, some value) => (g.flag? name).map fun flag => ⟨flag, isShort name, some value⟩
    | (_, none) => none

/-- How an argument is taken. Text that is no flag and could be a number, or that has a space in
it, is plain in spite of its dash. -/
def wordOf (g : Grammar) (text : String) : Except Stop Word :=
  if text.toList.head? ≠ some '-' ∨ text = "-" then .ok .plain
  else
    match exactUse? g text with
    | some u => .ok (.flag u)
    | none =>
      match candidates g text with
      | [(_, u)] => .ok (.flag u)
      | [] =>
        if isNegativeNumber text ∨ text.toList.contains ' ' then .ok .plain else .ok .unknown
      | many => .error (.refused g (.ambiguous text (many.map Prod.fst)))

def wordsOf (g : Grammar) : List String → Except Stop (List (String × Word))
  | [] => .ok []
  | "--" :: rest => .ok (("--", .separator) :: rest.map fun text => (text, .plain))
  | text :: rest => do
    let word ← wordOf g text
    return (text, word) :: (← wordsOf g rest)

/-- A flag that was set, with its value if it takes one. -/
structure Setting where
  flag : Flag
  value : String
  deriving DecidableEq, Repr

/-- The settings of one argument, and a flag that still needs the next argument as its value. -/
structure Cluster where
  settings : List Setting
  pending : Option Flag
  deriving DecidableEq, Repr

def Cluster.before (s : Setting) (c : Cluster) : Cluster := ⟨s :: c.settings, c.pending⟩

def single (f : Flag) : Cluster :=
  if f.takesValue then ⟨[], some f⟩ else ⟨[⟨f, ""⟩], none⟩

/-- Text attached to a letter is its value or, if it takes none, a row of further letters. In a row
an equals sign is a letter like others and one that no flag has is refused, as in the releases of
the argument library before 3.11.8; later ones let the sign begin a value and leave the rest of the
row over. -/
def letters (g : Grammar) (f : Flag) : List Char → Except Stop Cluster
  | [] => .ok (single f)
  | c :: rest =>
    if f.takesValue then .ok ⟨[⟨f, String.ofList (c :: rest)⟩], none⟩
    else
      match g.flag? (String.ofList ['-', c]) with
      | some next => (letters g next rest).map (Cluster.before ⟨f, ""⟩)
      | none => .error (.refused g (.unusedValue f.title (String.ofList (c :: rest))))

def clusterOf (g : Grammar) (u : Use) : Except Stop Cluster :=
  match u.attached with
  | none => .ok (single u.flag)
  | some text =>
    if u.flag.takesValue then .ok ⟨[⟨u.flag, text⟩], none⟩
    else if u.short && text ≠ "" then letters g u.flag text.toList
    else .error (.refused g (.unusedValue u.flag.title text))

/-- What arguments say: the flags in order, the operand and the arguments nothing was made of. -/
structure Reading where
  settings : List Setting := []
  operand : Option (List String) := none
  extras : List String := []
  deriving DecidableEq, Repr

def Reading.set (g : Grammar) (r : Reading) (s : Setting) : Except Stop Reading :=
  if s.flag.key = .help then .error (.help g)
  else if s.flag.choices ≠ [] ∧ ¬ s.flag.choices.contains s.value then
    .error (.refused g (.invalidChoice s.flag.title s.value s.flag.choices))
  else .ok { r with settings := r.settings ++ [s] }

def Reading.leave (r : Reading) (text : String) : Reading := { r with extras := r.extras ++ [text] }

/-- The separator where no operand has been found yet. All words after it are plain. -/
def Reading.separated (g : Grammar) (r : Reading) (rest : List String) : Reading :=
  match g.operand, rest with
  | .command _ _, [] | .required _, [] => r.leave "--"
  | .optional, [] => r
  | .command _ _, _ => { r with operand := some ("--" :: rest) }
  | _, text :: others => { r with operand := some [text], extras := r.extras ++ others }

/-- What a flag sets, and the flag that takes the next word as its value. -/
def Reading.use (g : Grammar) (r : Reading) (u : Use) : Except Stop (Reading × Option Flag) := do
  let cluster ← clusterOf g u
  return (← cluster.settings.foldlM (Reading.set g) r, cluster.pending)

/-- Goes through the words. A separator right behind the operand belongs to it. -/
def readWords (g : Grammar) : List (String × Word) → Reading → Except Stop Reading
  | [], r => .ok r
  | (text, .unknown) :: rest, r => readWords g rest (r.leave text)
  | (_, .flag u) :: rest, r =>
    match r.use g u with
    | .error stop => .error stop
    | .ok (r, none) => readWords g rest r
    | .ok (r, some flag) =>
      match rest with
      | (text, .plain) :: rest => (r.set g ⟨flag, text⟩).bind (readWords g rest)
      | _ => .error (.refused g (.valueMissing flag.title))
  | (text, .separator) :: rest, r =>
    if r.operand.isSome then readWords g rest (r.leave text)
    else .ok (r.separated g (rest.map Prod.fst))
  | (text, .plain) :: rest, r =>
    if r.operand.isSome then readWords g rest (r.leave text)
    else
      match g.operand with
      | .command _ _ => .ok { r with operand := some (text :: rest.map Prod.fst) }
      | _ =>
        match rest with
        | (_, .separator) :: rest => readWords g rest { r with operand := some [text] }
        | rest => readWords g rest { r with operand := some [text] }

def checkOperand (g : Grammar) (r : Reading) : Except Stop Reading :=
  match g.operand, r.operand with
  | .required title, none | .command title _, none => .error (.refused g (.missing title))
  | .command title names, some (name :: _) =>
    if names.contains name then .ok r
    else .error (.refused g (.invalidChoice title name names))
  | _, _ => .ok r

def Grammar.read (g : Grammar) (arguments : List String) : Except Stop Reading := do
  checkOperand g (← readWords g (← wordsOf g arguments) {})

namespace Reading

def has (r : Reading) (key : Key) : Bool := r.settings.any (·.flag.key = key)

def values (r : Reading) (key : Key) : List String :=
  (r.settings.filter (·.flag.key = key)).map (·.value)

/-- The last value counts. -/
def value? (r : Reading) (key : Key) : Option String := (r.values key).getLast?

end Reading
end SourceRecovery.Command
