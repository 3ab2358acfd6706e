/-!
# Why a step is refused

Every cause of refusal, with the code, the name and the wording it is reported under: causes of the
sale's own rules, causes of the script machine, account checks made before any rule runs, byte
layouts that do not read, and refusals by the transfer of coins or tokens.
-/

namespace UnitSale

/-- Causes stated by the sale's own rules. -/
inductive SaleError
  | unauthorized
  | overflow
  | alreadyInitialized
  | invalidSupplyLimit
  | royaltyTooHigh
  | invalidTimeBound
  | currencyMismatch
  | missingPaymentAccounts
  | belowMinimumUnits
  | priceAboveMaximum
  | noUnitsAvailable
  | priceOverflow
  | insufficientFunds
  | insufficientBalance
  | insufficientPayable
  | maxLimit
  | reservationsClosed
  | zeroUnits
  | alreadyCommitted
  | nothingReserved
  | notRevealing
  | revealWindowClosed
  | noCommitment
  | cannotReveal
  | revealsPending
  | alreadyShuffled
  | notShuffled
  | notRevealed
  | alreadyClaimed
  | invalidPhaseTransition
  deriving DecidableEq, Repr

/-- Causes stated by the script machine. -/
inductive ScriptError
  | emptyScript
  | tooManySources
  | sourceTooLong
  | tooManyConstants
  | sourceOutOfBounds
  | unknownOpcode
  | invalidOperand
  | constantOutOfBounds
  | contextOutOfBounds
  | unknownStorageSlot
  | stackUnderflow
  | stackOverflow
  | missingResults
  | divisionByZero
  | arithmeticOverflow
  | unknownAccount
  | dispatchTableMismatch
  | duplicateOpcode
  | tooManyOpcodes
  deriving DecidableEq, Repr

/-- Causes found while accounts are loaded and checked. -/
inductive AccountError
  | constraintSeeds
  | discriminatorNotFound
  | discriminatorMismatch
  | didNotDeserialize
  | notSigner
  | notInitialized
  deriving DecidableEq, Repr

/-- Causes for which bytes do not read as a value. -/
inductive LayoutError
  | unexpectedEnd
  | leftOver
  | variant (tag : UInt8)
  | optionTag (tag : UInt8)
  | boolTag (byte : UInt8)
  deriving DecidableEq, Repr

/-- Any cause of refusal. -/
inductive Fault
  | sale (cause : SaleError)
  | script (cause : ScriptError)
  | account (cause : AccountError)
  | layout (cause : LayoutError)
  | arithmetic
  | custom (number : Nat)
  deriving DecidableEq, Repr

/-! ## How causes are reported -/

/-- Code, name and wording of a cause. -/
structure Report where
  code : Nat
  name : String
  message : String
  deriving DecidableEq, Repr

/-- Codes of the sale's rules count from 6000. -/
def SaleError.report : SaleError → Report
  | unauthorized => ⟨6000, "Unauthorized", "Unauthorized"⟩
  | overflow => ⟨6001, "Overflow", "Math overflow"⟩
  | alreadyInitialized => ⟨6002, "AlreadyInitialized", "Sale already initialized"⟩
  | invalidSupplyLimit =>
    ⟨6003, "InvalidSupplyLimit", "Supply limit must be between 1 and MAX_SUPPLY_LIMIT"⟩
  | royaltyTooHigh => ⟨6004, "RoyaltyTooHigh", "Royalty exceeds MAX_ROYALTY_BPS"⟩
  | invalidTimeBound => ⟨6005, "InvalidTimeBound", "Invalid reveal time bound"⟩
  | currencyMismatch => ⟨6006, "CurrencyMismatch", "Payment currency mismatch"⟩
  | missingPaymentAccounts =>
    ⟨6007, "MissingPaymentAccounts", "Token payment accounts missing"⟩
  | belowMinimumUnits =>
    ⟨6008, "BelowMinimumUnits", "Purchasable units below requested minimum"⟩
  | priceAboveMaximum => ⟨6009, "PriceAboveMaximum", "Unit price above requested maximum"⟩
  | noUnitsAvailable => ⟨6010, "NoUnitsAvailable", "No units available"⟩
  | priceOverflow => ⟨6011, "PriceOverflow", "Price does not fit in u64"⟩
  | insufficientFunds => ⟨6012, "InsufficientFunds", "Insufficient funds"⟩
  | insufficientBalance => ⟨6013, "InsufficientBalance", "Insufficient balance"⟩
  | insufficientPayable =>
    ⟨6014, "InsufficientPayable", "Amount exceeds withdrawable funds"⟩
  | maxLimit => ⟨6015, "MaxLimit", "MAX_LIMIT"⟩
  | reservationsClosed => ⟨6016, "ReservationsClosed", "Reservations are closed"⟩
  | zeroUnits => ⟨6017, "ZeroUnits", "Reserved units must be positive"⟩
  | alreadyCommitted =>
    ⟨6018, "AlreadyCommitted", "Buyer already holds a reservation for this sale"⟩
  | nothingReserved => ⟨6019, "NothingReserved", "Nothing reserved"⟩
  | notRevealing => ⟨6020, "NotRevealing", "Reveal has not started"⟩
  | revealWindowClosed => ⟨6021, "RevealWindowClosed", "Reveal window closed"⟩
  | noCommitment => ⟨6022, "NoCommitment", "No commitment to reveal"⟩
  | cannotReveal =>
    ⟨6023, "CannotReveal", "Cannot reveal: secret does not match commitment"⟩
  | revealsPending => ⟨6024, "RevealsPending", "Reveals still pending"⟩
  | alreadyShuffled => ⟨6025, "AlreadyShuffled", "Ids already revealed"⟩
  | notShuffled => ⟨6026, "NotShuffled", "Ids not revealed yet"⟩
  | notRevealed => ⟨6027, "NotRevealed", "Commitment was not revealed"⟩
  | alreadyClaimed => ⟨6028, "AlreadyClaimed", "Reservation already claimed"⟩
  | invalidPhaseTransition =>
    ⟨6029, "InvalidPhaseTransition", "Invalid reveal phase transition"⟩

/-- Codes of the script machine count from 7000. -/
def ScriptError.report : ScriptError → Report
  | emptyScript => ⟨7000, "EmptyScript", "Script has no sources"⟩
  | tooManySources => ⟨7001, "TooManySources", "Too many sources"⟩
  | sourceTooLong => ⟨7002, "SourceTooLong", "Source exceeds maximum length"⟩
  | tooManyConstants => ⟨7003, "TooManyConstants", "Too many constants"⟩
  | sourceOutOfBounds => ⟨7004, "SourceOutOfBounds", "Source index out of bounds"⟩
  | unknownOpcode => ⟨7005, "UnknownOpcode", "Unknown opcode"⟩
  | invalidOperand => ⟨7006, "InvalidOperand", "Invalid operand"⟩
  | constantOutOfBounds => ⟨7007, "ConstantOutOfBounds", "Constant index out of bounds"⟩
  | contextOutOfBounds => ⟨7008, "ContextOutOfBounds", "Context index out of bounds"⟩
  | unknownStorageSlot => ⟨7009, "UnknownStorageSlot", "Unknown storage slot"⟩
  | stackUnderflow => ⟨7010, "StackUnderflow", "Stack underflow"⟩
  | stackOverflow => ⟨7011, "StackOverflow", "Stack overflow"⟩
  | missingResults => ⟨7012, "MissingResults", "Script leaves fewer than two results"⟩
  | divisionByZero => ⟨7013, "DivisionByZero", "Division by zero"⟩
  | arithmeticOverflow => ⟨7014, "ArithmeticOverflow", "Arithmetic overflow"⟩
  | unknownAccount => ⟨7015, "UnknownAccount", "Account counters not loaded"⟩
  | dispatchTableMismatch =>
    ⟨7016, "DispatchTableMismatch", "Script was validated against a different dispatch table"⟩
  | duplicateOpcode => ⟨7017, "DuplicateOpcode", "Duplicate opcode name"⟩
  | tooManyOpcodes => ⟨7018, "TooManyOpcodes", "Too many opcodes"⟩

/-- Codes of the account checks. -/
def AccountError.report : AccountError → Report
  | constraintSeeds => ⟨2006, "ConstraintSeeds", "A seeds constraint was violated"⟩
  | discriminatorNotFound =>
    ⟨3001, "AccountDiscriminatorNotFound", "No discriminator was found on the account"⟩
  | discriminatorMismatch =>
    ⟨3002, "AccountDiscriminatorMismatch",
      "Account discriminator did not match what was expected"⟩
  | didNotDeserialize =>
    ⟨3003, "AccountDidNotDeserialize", "Failed to deserialize the account"⟩
  | notSigner => ⟨3010, "AccountNotSigner", "The given account did not sign"⟩
  | notInitialized =>
    ⟨3012, "AccountNotInitialized",
      "The program expected this account to be already initialized"⟩

/-- Wording of a layout that does not read. -/
def LayoutError.message : LayoutError → String
  | unexpectedEnd => "Unexpected length of input"
  | leftOver => "Not all bytes read"
  | variant tag => "Unexpected variant index: " ++ toString tag.toNat
  | optionTag tag =>
    "Invalid Option representation: " ++ toString tag.toNat ++ ". The first byte must be 0 or 1"
  | boolTag byte => "Invalid bool representation: " ++ toString byte.toNat

/-- A cause is reported with a code and a name, or as plain text. -/
def Fault.report : Fault → Report ⊕ String
  | sale cause => .inl cause.report
  | script cause => .inl cause.report
  | account cause => .inl cause.report
  | layout cause => .inr ("BorshIoError(\"" ++ cause.message ++ "\")")
  | arithmetic => .inr "ArithmeticOverflow"
  | custom number => .inr ("Custom(" ++ toString number ++ ")")

end UnitSale
