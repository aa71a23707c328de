import MpesaMcp.App.Environment
import MpesaMcp.Library.Prog
import MpesaMcp.Python.Value

/-!
# Payment provider abstraction

A payment provider is a party of its own: it answers the two methods of `PaymentProviderProtocol`
over a state `π`, returning or raising as it likes. Whether a call of `initiate_payment` reaches the
customer is a separate fact (`takesEffect`): a provider may take effect and raise nevertheless.
-/

set_option autoImplicit false

namespace MpesaMcp

open Library Python

/-- Generic payment initiation response. -/
structure PaymentInitiationResponse where
  provider : String := "daraja"
  rail : String := "mpesa"
  checkoutRequestId : String
  merchantRequestId : String
  providerTransactionId : Option String := none
  providerReference : Option String := none
  responseCode : String
  responseDescription : String
  status : String := "pending"
  errorCategory : Option String := none
  rawResponse : Option PyDict := none

/-- Generic payment status response. -/
structure PaymentStatusResponse where
  provider : String := "daraja"
  rail : String := "mpesa"
  checkoutRequestId : String
  providerTransactionId : Option String := none
  providerReference : Option String := none
  resultCode : String
  resultDescription : String
  status : String
  errorCategory : Option String := none
  rawResponse : Option PyDict := none

/-- The arguments of `initiate_payment`. -/
structure InitiatePayment where
  phoneNumber : String
  amount : Int
  accountReference : String
  description : String
deriving DecidableEq

/-- Generic payment provider interface. -/
inductive PaymentProviderProtocol
  | initiatePayment (args : InitiatePayment)
  | checkTransactionStatus (transactionReference : String)

/-- What each method returns. -/
abbrev PaymentProviderProtocol.Answer : PaymentProviderProtocol → Type
  | .initiatePayment _ => PaymentInitiationResponse
  | .checkTransactionStatus _ => PaymentStatusResponse

/-- A payment provider with states `π`. -/
structure PaymentProvider (π : Type) where
  answer : Env → Handler Exn PaymentProviderProtocol.Answer (Ambient × π)
  /-- Whether the provider sends the push of a call to the customer. -/
  takesEffect : Env → InitiatePayment → Ambient × π → Bool
  forward : ∀ (env : Env) m (a : Ambient) state, a.Forward (answer env m (a, state)).2.1

end MpesaMcp
