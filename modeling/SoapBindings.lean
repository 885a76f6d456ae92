import SoapBindings.Main
import SoapBindings.Proofs.CommandLine
import SoapBindings.Proofs.Generator.Agreement
import SoapBindings.Proofs.Generator.Concatenation
import SoapBindings.Proofs.Generator.Influence
import SoapBindings.Proofs.Generator.MethodNames
import SoapBindings.Proofs.Generator.Parts
import SoapBindings.Proofs.Inflection
import SoapBindings.Proofs.Metadata.Document
import SoapBindings.Proofs.Naming
import SoapBindings.Proofs.Run
import SoapBindings.Proofs.Service.Truncation
import SoapBindings.Proofs.Settings.Document
import SoapBindings.Proofs.Settings.Tree
