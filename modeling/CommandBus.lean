import CommandBus.Main
import CommandBus.Parameter.Notation
import CommandBus.Report
import CommandBus.Sample.Authenticator
import CommandBus.Sample.Conversion
import CommandBus.Sample.Interceptor
import CommandBus.Sample.Records
import CommandBus.Proofs.Access.Records
import CommandBus.Proofs.Access.Check
import CommandBus.Proofs.Conversion.Elementwise
import CommandBus.Proofs.Conversion.Landing
import CommandBus.Proofs.Dispatch.Registration
import CommandBus.Proofs.Dispatch.Namespace
import CommandBus.Proofs.Dispatch.Building
import CommandBus.Proofs.Dispatch.Consistency
import CommandBus.Proofs.Dispatch.Denial
import CommandBus.Proofs.Json.Lexical
import CommandBus.Proofs.Json.Records
import CommandBus.Proofs.Bytes.Base64Url
import CommandBus.Proofs.Bytes.Utf8
import CommandBus.Proofs.Text.Cutting
import CommandBus.Proofs.Token.Signed
import CommandBus.Proofs.Token.Claims
import CommandBus.Proofs.Token.Verification
import CommandBus.Proofs.Dispatch.Memory
import CommandBus.Proofs.Dispatch.Startup
import CommandBus.Proofs.User.Reading
import CommandBus.Proofs.Dispatch.Standing
import CommandBus.Proofs.Demo.Tokens
import CommandBus.Proofs.Dispatch.Stages
import CommandBus.Proofs.Dispatch.Rejection
import CommandBus.Proofs.Conversion.Disabled
import CommandBus.Proofs.Parameter.Binding
import CommandBus.Proofs.Dispatch.Unbound
import CommandBus.Proofs.Dispatch.Isolation
import CommandBus.Proofs.Token.Presenting
import CommandBus.Proofs.Demo.Callers
import CommandBus.Proofs.Demo.Concealment
import CommandBus.Proofs.Number.Written
import CommandBus.Proofs.Json.Grammar
import CommandBus.Proofs.Wire.Lines
import CommandBus.Proofs.Wire.Serving
import CommandBus.Proofs.Dispatch.Naming
import CommandBus.Proofs.Wire.Answers
import CommandBus.Proofs.Access.Issuing
import CommandBus.Proofs.Access.Sharing
import CommandBus.Proofs.Number.Integers
import CommandBus.Proofs.Conversion.Narrowing
import CommandBus.Proofs.Conversion.Dates
import CommandBus.Proofs.Conversion.Overrides
import CommandBus.Proofs.Number.Exact
import CommandBus.Proofs.Conversion.Widening
import CommandBus.Proofs.Number.Texts
import CommandBus.Proofs.Uuid.Reading
import CommandBus.Proofs.Conversion.Texts
import CommandBus.Proofs.Value.Documents
import CommandBus.Proofs.Parameter.Extraction
import CommandBus.Proofs.Parameter.Schemas
import CommandBus.Proofs.Parameter.Storing
import CommandBus.Proofs.Parameter.Derived
import CommandBus.Proofs.Parameter.Agreement
import CommandBus.Proofs.Dispatch.Resolution
import CommandBus.Proofs.Token.Lifetime
import CommandBus.Proofs.Token.Authorities
import CommandBus.Proofs.Parameter.Copying
import CommandBus.Proofs.Dispatch.Raising
import CommandBus.Proofs.Dispatch.Chains
import CommandBus.Proofs.Access.Strategies
import CommandBus.Proofs.Token.Headers
import CommandBus.Proofs.History
import CommandBus.Proofs.Context.Attributes
import CommandBus.Proofs.Parameter.Layers
import CommandBus.Proofs.User.Format
import CommandBus.Proofs.Number.Sums
import CommandBus.Proofs.Demo.Adding
import CommandBus.Proofs.Json.Numbers
import CommandBus.Proofs.Json.Rereading
import CommandBus.Proofs.Wire.Shapes
import CommandBus.Proofs.Parameter.Order
