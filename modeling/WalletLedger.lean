import WalletLedger.Balance
import WalletLedger.Catalog
import WalletLedger.Ledger
import WalletLedger.Main
import WalletLedger.Proofs.Acceptance
import WalletLedger.Proofs.LedgerRuns
import WalletLedger.Proofs.BalanceRuns
import WalletLedger.Proofs.Totals
import WalletLedger.Proofs.NameTables
import WalletLedger.Proofs.ShownNames
import WalletLedger.Proofs.WriteBack
import WalletLedger.Proofs.Checks
import WalletLedger.Proofs.DisplayNames
import WalletLedger.Proofs.Requests
import WalletLedger.Proofs.CommandRuns
import WalletLedger.Proofs.ConfigFiles
import WalletLedger.Proofs.FirstFaults
import WalletLedger.Proofs.Catalogs
import WalletLedger.Proofs.Confinement
import WalletLedger.Proofs.WholeNumbers
import WalletLedger.Proofs.BinaryGrid
import WalletLedger.Proofs.FeeOrder
import WalletLedger.Proofs.FeeBounds
import WalletLedger.Proofs.FeeCeiling
import WalletLedger.Proofs.DecimalFees
import WalletLedger.Proofs.FeeWithinAmount
import WalletLedger.Proofs.FeeRange
import WalletLedger.Proofs.DecimalTexts
import WalletLedger.Proofs.MillisatTexts
import WalletLedger.Proofs.CalendarDays
import WalletLedger.Proofs.TimestampTexts
import WalletLedger.Proofs.DetailSheets
import WalletLedger.Proofs.AmountLaws
import WalletLedger.Proofs.SettingsReading
import WalletLedger.Proofs.FeeQuotes
import WalletLedger.Proofs.EntryRuns
