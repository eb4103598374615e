import AaSdk.Bytes
import AaSdk.Text
import AaSdk.Abi
import AaSdk.Types
import AaSdk.Pack
import AaSdk.Hash
import AaSdk.Client
import AaSdk.Signing
import AaSdk.Wire
import AaSdk.Bundler
import AaSdk.Account
import AaSdk.Rotator
import AaSdk.Fairness
import AaSdk.Sponsorship
import AaSdk.Reuse
import AaSdk.Transfer
import AaSdk.Mutex
import AaSdk.Progress
import AaSdk.SharedCache
