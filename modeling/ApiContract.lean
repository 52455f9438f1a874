import ApiContract.CommandLine.Program
import ApiContract.Contract.Description
import ApiContract.Main
import ApiContract.Proofs.Contract.Registration
import ApiContract.Proofs.Outcome
import ApiContract.Proofs.Contract.Closure
import ApiContract.Proofs.JsonSchema.Answers
import ApiContract.Proofs.JsonSchema.Depth
import ApiContract.Proofs.Contract.Runs
import ApiContract.Proofs.Contract.Arrangement
import ApiContract.Proofs.JsonSchema.Retrieval
import ApiContract.Proofs.Contract.Growth
import ApiContract.Proofs.Contract.Endings
import ApiContract.Proofs.Schema.Shape
import ApiContract.Proofs.JsonSchema.Sessions
import ApiContract.Proofs.JsonSchema.Verdicts
import ApiContract.Proofs.JsonSchema.Copies
import ApiContract.Proofs.Contract.Composition
import ApiContract.Proofs.Conformance.Undeclared
import ApiContract.Proofs.Conformance.Stages
import ApiContract.Proofs.Conformance.Records
import ApiContract.Proofs.Conformance.Origins
import ApiContract.Proofs.Command.ExitCodes
import ApiContract.Proofs.Specification.Declarations
import ApiContract.Proofs.Dialect.Verdicts
import ApiContract.Proofs.Contract.Precedence
import ApiContract.Proofs.Schema.Culprit
import ApiContract.Proofs.Schema.Idempotence
import ApiContract.Proofs.Contract.Targets
import ApiContract.Proofs.Contract.Requirements
import ApiContract.Proofs.Conformance.Cases
import ApiContract.Proofs.Settings.Layers
import ApiContract.Proofs.Settings.Resolution
import ApiContract.Proofs.Yaml.Images
import ApiContract.Proofs.Specification.ChannelReferences
import ApiContract.Proofs.Schema.Identity
import ApiContract.Proofs.Specification.SchemaReferences
