import WalletLedger.CommandLine.Reply
import WalletLedger.Proofs.Views

/-!
# The lines of an entry

All parts of a well-formed entry can be shown, and so its lines can be written down without the
breaches that other entries meet: its title, its icon with a direction where the icon is an arrow
(`Entry.directionText`), what its owner does or did and with how much, and a line for each row of
the sheet (`Row.line`). `CommandLine.entryText_eq` says that these are the lines that are printed.
-/

namespace WalletLedger

namespace Explorer

/-- The page of a transaction on one of the networks. -/
def page (network : Network) (txid : String) : String :=
  "https://mempool.space/" ++ networkPath network ++ "tx/" ++ txid

/-- Every listed network has a page for each transaction. -/
theorem transactionPage_listed (network : Network) (txid : String) :
    transactionPage (.listed network) txid = .ok (page network txid) := rfl

end Explorer

/-! ### Rows -/

namespace Row

/-- The line of a row, with the page of a transaction. -/
def line (network : Network) (r : Row) : String :=
  r.label ++ ": " ++ r.value ++
    (if r.hint = some .transactionId then " <" ++ Explorer.page network r.value ++ ">" else "") ++
    "\n"

/-- The lines of rows one after the other. -/
def lines (network : Network) : List Row → String
  | [] => ""
  | r :: rest => r.line network ++ lines network rest

theorem lines_append (network : Network) (rows others : List Row) :
    lines network (rows ++ others) = lines network rows ++ lines network others := by
  induction rows with
  | nil => simp [lines]
  | cons r rest ih => simp [lines, ih, String.append_assoc]

end Row

/-! ### The icon -/

/-- The direction that is shown with the icon of a payment. The other kinds have none. -/
def Entry.directionText (e : Entry) : String :=
  if e.kind = .lightningPayment ∨ e.kind = .onChainPayment then
    if e.flow = .listed .inbound then "/down" else "/up"
  else ""

namespace CommandLine

variable {e : Entry}

theorem iconText_eq (h : ∃ flow, e.flow = .listed flow) :
    iconText e = .ok (Enumeration.name e.kind.icon ++ e.directionText) := by
  obtain ⟨flow, hflow⟩ := h
  unfold iconText Entry.directionText
  rw [hflow]
  cases hkind : e.kind <;> cases flow <;> rfl

/-! ### All lines -/

theorem rowText_eq_ok (network : Network) (r : Row) : rowText network r = .ok (r.line network) := by
  unfold rowText Row.line
  split
  · simp [Explorer.transactionPage_listed, Except.map, String.append_assoc]
  · simp

theorem rowTexts_eq_ok (network : Network) (rows : List Row) :
    rowTexts network rows = .ok (Row.lines network rows) := by
  induction rows with
  | nil => rfl
  | cons r rest ih =>
    rw [rowTexts, rowText_eq_ok, ih]
    rfl

/-- The lines of a well-formed entry, with the words and the sign of its movement. -/
theorem entryText_eq (h : e.WellFormed) {c : Classification}
    (hc : Movement.classify e.flow e.status = .ok c) (network : Network) :
    entryText network e =
      .ok (e.title ++ " (" ++ e.chainLabel ++ ")\n"
        ++ "icon: " ++ (Enumeration.name e.kind.icon ++ e.directionText) ++ "\n"
        ++ ("You " ++ c.verb) ++ " "
        ++ Decimal.signedText (c.sign * (e.amount.units.toNat : Int)) ++ " sats\n"
        ++ Row.lines network e.historyRows) := by
  rw [entryText, iconText_eq h.flow, Entry.headline_of_classify hc,
    Entry.signedUnits_of_classify h hc, rowTexts_eq_ok]
  rfl

/-- All lines of a well-formed entry can be printed. -/
theorem exists_entryText_eq_ok (network : Network) (h : e.WellFormed) :
    ∃ text, entryText network e = .ok text := by
  obtain ⟨c, hc⟩ := Movement.exists_classify_eq_ok h.flow h.status
  exact ⟨_, entryText_eq h hc network⟩

end CommandLine

end WalletLedger
