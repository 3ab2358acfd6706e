import UnitSale.Checked
import UnitSale.Update
import UnitSale.Address
import UnitSale.Script.Standard
import UnitSale.Script.Evaluate
import UnitSale.Script.Validate
import UnitSale.Script.Builder
import UnitSale.Script.Listing
import UnitSale.Sale.Quote
import UnitSale.Reveal.Shuffle
import UnitSale.Layout.Records
import UnitSale.Chain.Report
import UnitSale.Chain.Instruction
import UnitSale.Proofs.UpdateTheorems
import UnitSale.Proofs.OpcodeTheorems
import UnitSale.Proofs.ValidationTheorems
import UnitSale.Proofs.RegistryTheorems
import UnitSale.Proofs.SaleTheorems
import UnitSale.Proofs.ShuffleTheorems
import UnitSale.Proofs.TransferTheorems
import UnitSale.Proofs.InstructionTheorems
import UnitSale.Proofs.BooksTheorems
import UnitSale.Proofs.Histories
import UnitSale.Proofs.DrawsTheorems
import UnitSale.Proofs.Reservations
import UnitSale.Proofs.StockTheorems
import UnitSale.Proofs.Slots
import UnitSale.Proofs.IdsTheorems
import UnitSale.Proofs.Funds
import UnitSale.Proofs.SolvencyTheorems
import UnitSale.Proofs.LedgerTheorems
import UnitSale.Proofs.PricingTheorems
import UnitSale.Proofs.PhaseTheorems
import UnitSale.Proofs.SlotOrder
import UnitSale.Proofs.TermsTheorems
import UnitSale.Proofs.RecordSteps
import UnitSale.Proofs.WindowTheorems
import UnitSale.Proofs.AuthorityTheorems
import UnitSale.Proofs.OutcomeTheorems
import UnitSale.Proofs.ForwardTheorems
import UnitSale.Proofs.IsolationTheorems
import UnitSale.Proofs.LayoutTheorems
import UnitSale.Proofs.RecordLayouts
import UnitSale.Proofs.SpaceTheorems
import UnitSale.Proofs.WalletTheorems
import UnitSale.Proofs.ArrangementTheorems
import UnitSale.Proofs.RefusalTheorems
import UnitSale.Proofs.PaymentTheorems
import UnitSale.Proofs.PurchaseTheorems
import UnitSale.Proofs.CommitTheorems
import UnitSale.Proofs.FinishTheorems
import UnitSale.Proofs.QuoteTheorems
import UnitSale.Proofs.WithdrawalTheorems
import UnitSale.Proofs.PledgeTheorems
import UnitSale.Proofs.OrderTheorems
import UnitSale.Proofs.TableTheorems
import UnitSale.Proofs.NamesTheorems
import UnitSale.Proofs.FingerprintTheorems
import UnitSale.Proofs.BuilderTheorems
import UnitSale.Proofs.CompositionTheorems
import UnitSale.Proofs.CountedTheorems
import UnitSale.Proofs.ListingTheorems
import UnitSale.Proofs.RoyaltyTheorems
import UnitSale.Proofs.StreamTheorems
