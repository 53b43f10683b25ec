import SealedMetadata.Account.Credentials
import SealedMetadata.Account.MasterKeys
import SealedMetadata.Account.PrivateKey
import SealedMetadata.Action
import SealedMetadata.Alphanumeric
import SealedMetadata.Blob.AnyKey
import SealedMetadata.Blob.Authenticated
import SealedMetadata.Blob.Basic
import SealedMetadata.Blob.Salted
import SealedMetadata.Bytes
import SealedMetadata.Bytes.Base64
import SealedMetadata.Bytes.Hex
import SealedMetadata.Bytes.Slice
import SealedMetadata.Cipher.Aes
import SealedMetadata.Cipher.Cbc
import SealedMetadata.Cipher.Gcm
import SealedMetadata.Cli.Command
import SealedMetadata.Cli.Options
import SealedMetadata.Cli.RawText
import SealedMetadata.Cli.Run
import SealedMetadata.Decimal.Shortest
import SealedMetadata.Failure
import SealedMetadata.Hash.Md2
import SealedMetadata.Hash.Md4
import SealedMetadata.Hash.Md5
import SealedMetadata.Hash.Padding
import SealedMetadata.Hash.Sha1
import SealedMetadata.Hash.Sha256
import SealedMetadata.Hash.Sha512
import SealedMetadata.Kdf.DigestStream
import SealedMetadata.Kdf.Fingerprint
import SealedMetadata.Kdf.Hmac
import SealedMetadata.Kdf.PasswordKey
import SealedMetadata.Kdf.Pbkdf2
import SealedMetadata.Link.Secrets
import SealedMetadata.Log
import SealedMetadata.Logbook
import SealedMetadata.Main
import SealedMetadata.Payload.AuthInfo
import SealedMetadata.Payload.Choice
import SealedMetadata.Payload.LinkAdd
import SealedMetadata.Payload.LinkEdit
import SealedMetadata.Payload.LinkStatus
import SealedMetadata.Payload.Login
import SealedMetadata.Payload.Model
import SealedMetadata.Payload.SealedCredentials
import SealedMetadata.Proofs.Account.DerivedKeys
import SealedMetadata.Proofs.Account.LoginFlow
import SealedMetadata.Proofs.Account.MasterKeySet
import SealedMetadata.Proofs.Account.PrivateKeyField
import SealedMetadata.Proofs.Account.SealedFields
import SealedMetadata.Proofs.Blob.AuthenticBodies
import SealedMetadata.Proofs.Blob.FailureOfBlob
import SealedMetadata.Proofs.Blob.FieldSearch
import SealedMetadata.Proofs.Blob.KeySearch
import SealedMetadata.Proofs.Blob.Openings
import SealedMetadata.Proofs.Blob.Outcome
import SealedMetadata.Proofs.Blob.RoundTrip
import SealedMetadata.Proofs.Blob.SaltedInverse
import SealedMetadata.Proofs.Blob.Shape
import SealedMetadata.Proofs.Blob.Sniffing
import SealedMetadata.Proofs.Blob.TextForm
import SealedMetadata.Proofs.Blob.UnreadKey
import SealedMetadata.Proofs.Bytes.Base64
import SealedMetadata.Proofs.Bytes.ByteFacts
import SealedMetadata.Proofs.Bytes.CanonicalBase64
import SealedMetadata.Proofs.Bytes.HexDecoding
import SealedMetadata.Proofs.Bytes.Rows
import SealedMetadata.Proofs.Bytes.Words
import SealedMetadata.Proofs.Cipher.BlockBytes
import SealedMetadata.Proofs.Cipher.BlockInverse
import SealedMetadata.Proofs.Cipher.BlockPermutation
import SealedMetadata.Proofs.Cipher.ChainedBlocks
import SealedMetadata.Proofs.Cipher.ChainedInverse
import SealedMetadata.Proofs.Cipher.CounterMode
import SealedMetadata.Proofs.Cli.CommandLines
import SealedMetadata.Proofs.Cli.Contract
import SealedMetadata.Proofs.Cli.Outcomes
import SealedMetadata.Proofs.Cli.Running
import SealedMetadata.Proofs.Cli.Sealing
import SealedMetadata.Proofs.Cli.Spelling
import SealedMetadata.Proofs.Decimal.Truncation
import SealedMetadata.Proofs.Kdf.KeyMaterial
import SealedMetadata.Proofs.Kdf.KeyedCode
import SealedMetadata.Proofs.Kdf.PasswordBlocks
import SealedMetadata.Proofs.Log.AccountEvents
import SealedMetadata.Proofs.Log.Events
import SealedMetadata.Proofs.Log.Lines
import SealedMetadata.Proofs.Payload.AuthInfoFields
import SealedMetadata.Proofs.Payload.LinkKey
import SealedMetadata.Proofs.Payload.LinkPassword
import SealedMetadata.Proofs.Payload.LinkPasswordHash
import SealedMetadata.Proofs.Random.Counts
import SealedMetadata.Proofs.Random.Draws
import SealedMetadata.Proofs.Secret.SameContent
import SealedMetadata.Proofs.Session.Drawing
import SealedMetadata.Proofs.Session.Growth
import SealedMetadata.Proofs.Session.Handout
import SealedMetadata.Proofs.Session.Interchange
import SealedMetadata.Proofs.Session.LifeCycle
import SealedMetadata.Proofs.Session.Logbooks
import SealedMetadata.Proofs.Session.Logging
import SealedMetadata.Proofs.Session.Parts
import SealedMetadata.Proofs.Session.Randomness
import SealedMetadata.Proofs.Session.Release
import SealedMetadata.Proofs.Session.Secrecy
import SealedMetadata.Proofs.Session.SecretArguments
import SealedMetadata.Proofs.Session.Vaulted
import SealedMetadata.Proofs.Session.Views
import SealedMetadata.Proofs.Settings.Grammar
import SealedMetadata.Proofs.Settings.Serving
import SealedMetadata.Proofs.Text.Ascii
import SealedMetadata.Proofs.Text.Capitals
import SealedMetadata.Proofs.Text.HexDigits
import SealedMetadata.Proofs.Text.Numeral
import SealedMetadata.Proofs.Text.Pieces
import SealedMetadata.Proofs.Text.Quotation
import SealedMetadata.Proofs.Uuid
import SealedMetadata.RandomSource
import SealedMetadata.Secret
import SealedMetadata.Session.BlobOperations
import SealedMetadata.Session.Describe
import SealedMetadata.Session.KeyOperations
import SealedMetadata.Session.ModelOperations
import SealedMetadata.Session.Object
import SealedMetadata.Session.Operation
import SealedMetadata.Session.Reply
import SealedMetadata.Session.Run
import SealedMetadata.Session.SecretOperations
import SealedMetadata.Settings
import SealedMetadata.Text.Blank
import SealedMetadata.Text.Capitals
import SealedMetadata.Text.DecimalDigit
import SealedMetadata.Text.IntLiteral
import SealedMetadata.Text.Pieces
import SealedMetadata.Text.Printable
import SealedMetadata.Text.Quoted
import SealedMetadata.Text.Utf8
import SealedMetadata.Uuid
import SealedMetadata.Value
import SealedMetadata.Vault
import SealedMetadata.Vaulted
import SealedMetadata.Version
