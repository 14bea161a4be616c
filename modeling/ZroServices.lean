import ZroServices.Common.NonceGuard
import ZroServices.Operations.Settlement
import ZroServices.Operations.DeleteWallet
import ZroServices.Operations.Overdraft
import ZroServices.Wallets.Root
import ZroServices.Operations.ReleasedOnce
import ZroServices.Operations.AvgPrice
import ZroServices.Otc.MarketPending
import ZroServices.Otc.Exposure
import ZroServices.Otc.QuotationState
import ZroServices.Pix.ConcurrentDevolutions
import ZroServices.PixKeys.CreatePixKey
import ZroServices.PixKeys.ClaimParties
import ZroServices.PixKeys.VerifyCode
import ZroServices.Pix.Warnings
import ZroServices.Pix.OneEnd
import ZroServices.Compliance.WarningTransactions
import ZroServices.Banking.SentOnce
import ZroServices.Banking.Refunded
import ZroServices.OtcBot.Balance
import ZroServices.Otc.CreditedOnce
import ZroServices.Otc.RunningBalance
import ZroServices.Common.Interceptors
import ZroServices.Utils.FiredOnce
import ZroServices.Webhooks.StillPending
import ZroServices.Users.Guesses
import ZroServices.Users.PaidOnce
import ZroServices.Pix.AcceptedOnce
import ZroServices.Topazio.Reconciled
import ZroServices.Operations.Recorded
import ZroServices.Limits.AdminUpdate
import ZroServices.Operations.TransferFee
import ZroServices.Tradair.RequiredFields
import ZroServices.Operations.Receipt
import ZroServices.Otc.LeftBehind
import ZroServices.Quotations.AllQuoted
import ZroServices.Quotations.ChargedAsQuoted
import ZroServices.Users.RewardShare
import ZroServices.PixKeys.WaitingTime
import ZroServices.Webhooks.BackOff
import ZroServices.PixKeys.SyncClaims
import ZroServices.Users.SyncActive
import ZroServices.Utils.FailingRetry
import ZroServices.Otc.ReportsAgree
import ZroServices.Pix.Mistyped
import ZroServices.PixZroPay.QrCodeFee
import ZroServices.Utils.Withdrawals
import ZroServices.Pix.OnlyRefusals
import ZroServices.Scripts.TimeOfDayTests
import ZroServices.Pix.BlockedFunds
import ZroServices.Payments.Debited
import ZroServices.Pix.DepositRetry
import ZroServices.Payments.GivenBack
import ZroServices.Payments.Canceled
import ZroServices.Pix.WarningCheckers
import ZroServices.Utils.Withdrawals
import ZroServices.Quotations.TrendLabels
import ZroServices.Scripts.Backfill
