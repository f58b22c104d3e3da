import ShapeContracts.Main
import ShapeContracts.Proofs.Call
import ShapeContracts.Proofs.Persistence
import ShapeContracts.Proofs.Reason
import ShapeContracts.Proofs.Suffix
import ShapeContracts.Proofs.Building
import ShapeContracts.Proofs.Capability
import ShapeContracts.Proofs.Numeral
import ShapeContracts.Proofs.Offence
import ShapeContracts.Proofs.Text
import ShapeContracts.Proofs.Suffixes
import ShapeContracts.Proofs.DescriptionGrammar
import ShapeContracts.Proofs.DescriptionFault
import ShapeContracts.Proofs.DescriptionRoundTrip
import ShapeContracts.Proofs.TokenForms
import ShapeContracts.Proofs.Synonym
import ShapeContracts.Proofs.Narrowing
import ShapeContracts.Proofs.DeclaredSize
import ShapeContracts.Proofs.Renaming
import ShapeContracts.Proofs.NameCount
import ShapeContracts.Proofs.Staging
import ShapeContracts.Proofs.Checking
