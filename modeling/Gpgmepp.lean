import Gpgmepp.Lib.Run
import Gpgmepp.Lib.Dialogue
import Gpgmepp.Lib.Overlay
import Gpgmepp.Lib.Ensures
import Gpgmepp.Lib.Flags
import Gpgmepp.Lib.Collect
import Gpgmepp.Lib.InPlace
import Gpgmepp.Lib.Shared
import Gpgmepp.Lib.Tokens
import Gpgmepp.Lib.Words
import Gpgmepp.Lib.Chunks
import Gpgmepp.Lib.Walk
import Gpgmepp.Lib.LinkedList
import Gpgmepp.Lib.Terminated
import Gpgmepp.Error
import Gpgmepp.Features
import Gpgmepp.CString
import Gpgmepp.PercentUnescape
import Gpgmepp.PercentUnescape.Malformed
import Gpgmepp.Descriptor
import Gpgmepp.Callbacks
import Gpgmepp.EditInteractor
import Gpgmepp.EditInteractor.SetExpiryTime
import Gpgmepp.EditInteractor.SetOwnerTrust
import Gpgmepp.EditInteractor.AddUserID
import Gpgmepp.EditInteractor.SignKey
import Gpgmepp.EditInteractor.Failure
import Gpgmepp.EditInteractor.Delivery
import Gpgmepp.EditInteractor.Scripted
import Gpgmepp.EditInteractor.Dialogues
import Gpgmepp.EditInteractor.DataEntry
import Gpgmepp.EditInteractor.OneLine
import Gpgmepp.EditInteractor.SignKeyReplies
import Gpgmepp.EditInteractor.SignKeyOrder
import Gpgmepp.EditInteractor.SignKeyListing
import Gpgmepp.EventLoopInteractor
import Gpgmepp.TrustItem
import Gpgmepp.Context.EngineInfo
import Gpgmepp.Context.Operations
import Gpgmepp.Context.Results
import Gpgmepp.Context.ImportKeys
import Gpgmepp.Context.Recipients
import Gpgmepp.Context.Attributes
import Gpgmepp.Context.LifeCycle.Accounts
import Gpgmepp.Key
import Gpgmepp.Key.CardKeys
import Gpgmepp.Key.Merging
import Gpgmepp.Key.Accessors
import Gpgmepp.KeyListResult
import Gpgmepp.KeyListResult.MergedError
import Gpgmepp.ScdGetInfoAssuanTransaction
import Gpgmepp.DataProvider.QIODevice
import Gpgmepp.DataProvider.QByteArray
import Gpgmepp.DataProvider.Seek
import Gpgmepp.DataProvider.Reading
import Gpgmepp.DataProvider
import Gpgmepp.Data
import Gpgmepp.Data.Safety
import Gpgmepp.VerificationResult
import Gpgmepp.VerificationResult.Copies
import Gpgmepp.VerificationResult.PolicyURL
import Gpgmepp.Configuration.Node
import Gpgmepp.Configuration.Objects
import Gpgmepp.Configuration.Machine
import Gpgmepp.Configuration.Invariants
import Gpgmepp.Configuration.Members
import Gpgmepp.Configuration.Effect
import Gpgmepp.Configuration.Lifetime
import Gpgmepp.Configuration.Typing
import Gpgmepp.Configuration.Copies
import Gpgmepp.Configuration.Values
import Gpgmepp.Configuration.RoundTrip
import Gpgmepp.Configuration.Accessors
import Gpgmepp.Configuration.Loading
import Gpgmepp.Configuration.Allocation
import Gpgmepp.Accessors
import Gpgmepp.Lib.Owners
import Gpgmepp.AssuanTransaction
import Gpgmepp.Context.Interactors
import Gpgmepp.Context.Ownership
import Gpgmepp.Lib.Memory
import Gpgmepp.ResultCopies
import Gpgmepp.ResultCopies.Refinement
import Gpgmepp.ResultCopies.Classes
import Gpgmepp.Lib.File
import Gpgmepp.DataProvider.File
import Gpgmepp.Lib.Decimal
import Gpgmepp.GpgAgentGetInfoAssuanTransaction
import Gpgmepp.Lib.Counted
import Gpgmepp.Key.References
import Gpgmepp.EventLoopInteractor.Notifiers
import Gpgmepp.EventLoopInteractor.Reentrance
import Gpgmepp.Lib.Places
import Gpgmepp.Configuration.Memory
import Gpgmepp.Configuration.Agreement
import Gpgmepp.Configuration.Accounts
