import WalletLedger.CommandLine.ConfigFile

/-!
# Words and lines

On a command line options are written as words: `--name value` or `--name=value`, where a name may
be cut short as long as no other option begins in the same way, and a word that stands alone is the
command. In a configuration file they are written as lines `name = value`, with comments after `#`;
under a heading in square brackets a name is one of that heading. An unknown name is refused on the
command line and passed over in a file, where an option that the command line has given is passed
over too. A line that is none of these spoils the file.

This is an outer layer of the program, which makes the `Given` and the `ConfigFile` that `start` is
about. No theorem depends on it.
-/

namespace WalletLedger.CommandLine

/-- An option by name and the text of its value. -/
structure Setting where
  name : String
  value : String
  deriving DecidableEq

/-! ### Values -/

/-- A whole number of digits alone. -/
def digits? (cs : List Char) : Option Nat :=
  if cs ≠ [] ∧ cs.all Char.isDigit then some (Decimal.value cs) else none

/-- A signed whole number in the range of 64 bits. -/
def integer? (text : String) : Option Int64 := do
  let n : Int ← match text.toList with
    | '-' :: cs => (digits? cs).map fun n => -(n : Int)
    | '+' :: cs => (digits? cs).map fun n => (n : Int)
    | cs => (digits? cs).map fun n => (n : Int)
  if -9223372036854775808 ≤ n ∧ n ≤ 9223372036854775807 then some (Int64.ofInt n) else none

/-- A decimal number without a sign. -/
def unsignedDecimal? (cs : List Char) : Option Rat := do
  let places := (cs.dropWhile (· != '.')).drop 1
  let whole ← digits? (cs.takeWhile (· != '.') ++ places)
  return (whole : Rat) / (10 : Rat) ^ (places.length : Int)

/-- The binary number nearest to a decimal number, of its sign. -/
def decimal? (text : String) : Option Binary64 :=
  match text.toList with
  | '-' :: cs =>
    (unsignedDecimal? cs).map fun x => ⟨(Binary64.ofRat x).bits ||| 0x8000000000000000⟩
  | '+' :: cs => (unsignedDecimal? cs).map Binary64.ofRat
  | cs => (unsignedDecimal? cs).map Binary64.ofRat

/-! ### Settings -/

namespace Given

/-- What is given with one more setting, if there is an option of its name and the text is a value
of it. -/
def set? (g : Given) (s : Setting) : Option Given :=
  match s.name with
  | "help" => some { g with help := true }
  | "command" => some { g with command := s.value }
  | "config" => some { g with config := s.value }
  | "network" => some { g with display := { g.display with network := s.value } }
  | "log-level" => some { g with display := { g.display with logLevel := s.value } }
  | "flow" => some { g with flow := s.value }
  | "status" => some { g with status := s.value }
  | "amount" => (integer? s.value).map fun n => { g with amount := n }
  | "timestamp" => (integer? s.value).map fun n => { g with timestamp := n }
  | "kind" => some { g with kind := s.value }
  | "fee-msats" => (integer? s.value).map fun n => { g with feeMsats := n }
  | "expiry" => (integer? s.value).map fun n => { g with expiry := n }
  | "invoice" => some { g with invoice := s.value }
  | "description" => some { g with description := s.value }
  | "payment-hash" => some { g with paymentHash := s.value }
  | "preimage" => some { g with preimage := s.value }
  | "order-id" => some { g with orderId := s.value }
  | "txid" => some { g with txid := s.value }
  | "confirmations" => (integer? s.value).map fun n => { g with confirmations := n }
  | "fee-sats" => (integer? s.value).map fun n => { g with feeSats := n }
  | "id" => (integer? s.value).map fun n => { g with id := n }
  | "title" => some { g with title := s.value }
  | "trade-up-to" => (integer? s.value).map fun n => { g with tradeUpTo := n }
  | "min-deposit" => (integer? s.value).map fun n => { g with minDeposit := n }
  | "max-deposit" => (integer? s.value).map fun n => { g with maxDeposit := n }
  | "fee-percentage" => (decimal? s.value).map fun x => { g with feePercentage := x }
  | "min-fee" => (integer? s.value).map fun n => { g with minFee := n }
  | "leverage" => (decimal? s.value).map fun x => { g with leverage := x }
  | _ => none

/-- One more setting, after those of some names. Messages put these dashes before a name. -/
def addSetting (dashes : String) (names : List String) (g : Given) (s : Setting) :
    Except String Given :=
  if s.name ∈ names then
    .error ("option '" ++ dashes ++ s.name ++ "' cannot be specified more than once")
  else
    match g.set? s with
    | some g => .ok g
    | none =>
      .error ("the argument ('" ++ s.value ++ "') for option '" ++ dashes ++ s.name
        ++ "' is invalid")

/-- What settings give, one after the other. -/
def ofSettings (dashes : String) (settings : List Setting) : Except String Given := do
  let (_, given) ← settings.foldlM
    (fun (names, g) s => return (s.name :: names, ← addSetting dashes names g s))
    (([], {}) : List String × Given)
  return given

end Given

/-! ### Words -/

/-- The names of all options. -/
def optionNames : List String := Declaration.all.map Declaration.name

/-- The option that is meant by a name that may be cut short. -/
def resolve (name : String) : Except String String :=
  if name ∈ optionNames then .ok name
  else
    match optionNames.filter fun full => name.toList.isPrefixOf full.toList with
    | [] => .error ("unrecognised option '--" ++ name ++ "'")
    | [full] => .ok full
    | several =>
      let quoted := several.mergeSort.map fun full => "'--" ++ full ++ "'"
      .error ("option '--" ++ name ++ "' is ambiguous and matches " ++
        String.join (quoted.dropLast.map (· ++ ", ")) ++ "and " ++ quoted.getLastD "")

/-- The first words of a command line, sorted out: the settings in them, the option whose value is
the next word, and whether one of them was the command. -/
structure Words where
  settings : List Setting := []
  pending : Option String := none
  named : Bool := false
  deriving DecidableEq

namespace Words

/-- One more setting, after the others. -/
def addSetting (w : Words) (s : Setting) : Words :=
  { w with settings := w.settings ++ [s], pending := none }

/-- A word that begins with two dashes. -/
def addLong (w : Words) (letters : List Char) : Except String Words := do
  let name ← resolve (String.ofList (letters.takeWhile (· != '=')))
  match letters.dropWhile (· != '='), name with
  | ['='], _ =>
    throw ("the argument for option '--" ++ name ++
      "' should follow immediately after the equal sign")
  | '=' :: _, "help" => throw "option '--help' does not take any arguments"
  | '=' :: value, _ => return w.addSetting ⟨name, String.ofList value⟩
  | _, "help" => return w.addSetting ⟨name, ""⟩
  | _, _ => return { w with pending := name }

/-- One more word. -/
def addWord (w : Words) (word : String) : Except String Words :=
  match w.pending, word.toList with
  | some name, _ => .ok (w.addSetting ⟨name, word⟩)
  | none, '-' :: '-' :: letters => w.addLong letters
  | none, ['-', 'h'] => .ok (w.addSetting ⟨"help", ""⟩)
  | none, '-' :: letter :: _ =>
    .error ("unrecognised option '" ++ String.ofList ['-', letter] ++ "'")
  | none, _ =>
    if w.named then .error "too many positional options have been specified on the command line"
    else .ok { w.addSetting ⟨"command", word⟩ with named := true }

end Words

/-- The settings in the words of a command line. -/
def Setting.ofWords (words : List String) : Except String (List Setting) := do
  let w ← words.foldlM Words.addWord {}
  match w.pending with
  | none => return w.settings
  | some name => throw ("the required argument for option '--" ++ name ++ "' is missing")

/-! ### Lines -/

/-- The text without blanks at either end. -/
def withoutBlanks (cs : List Char) : List Char :=
  ((cs.dropWhile Char.isWhitespace).reverse.dropWhile Char.isWhitespace).reverse

/-- What stands before the names under a heading. -/
def qualifier (heading : List Char) : List Char :=
  if heading.getLast? = some '.' then heading else heading ++ ['.']

/-- The settings in lines, when this stands before the names in them. -/
def Setting.ofLines (before : List Char) : List String → Except String (List Setting)
  | [] => .ok []
  | line :: rest =>
    match withoutBlanks (line.toList.takeWhile (· != '#')) with
    | [] => ofLines before rest
    | cs =>
      if cs.head? = some '[' ∧ cs.getLast? = some ']' then
        ofLines (qualifier (cs.drop 1).dropLast) rest
      else
        match cs.dropWhile (· != '=') with
        | '=' :: value => do
          let name := String.ofList (before ++ withoutBlanks (cs.takeWhile (· != '=')))
          return ⟨name, String.ofList (withoutBlanks value)⟩ :: (← ofLines before rest)
        | _ =>
          .error ("the options configuration file contains an invalid line '" ++ String.ofList cs
            ++ "'")

/-- The configuration file of this content, next to a command line that gives options of these
names. -/
def ConfigFile.ofContent (names : List String) (content : String) : ConfigFile :=
  let read := do
    let settings ← Setting.ofLines [] (content.splitOn "\n")
    Given.ofSettings "" (settings.filter fun s => s.name ∈ optionNames ∧ s.name ∉ names)
  match read with
  | .ok inFile => .settings inFile
  | .error reason => .malformed reason

end WalletLedger.CommandLine
