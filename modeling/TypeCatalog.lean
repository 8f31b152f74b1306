import TypeCatalog.Main
import TypeCatalog.Proofs.Catalog.Serializing
import TypeCatalog.Proofs.CommandLine.Running
import TypeCatalog.Proofs.Declaration.Membership
import TypeCatalog.Proofs.Declaration.MethodLayout
import TypeCatalog.Proofs.Method.Source
import TypeCatalog.Proofs.Session.Prefix
import TypeCatalog.Proofs.Session.Reordering
import TypeCatalog.Proofs.Session.Repetition
import TypeCatalog.Proofs.Signature.Quotation
import TypeCatalog.Proofs.Signature.Suffixes
import TypeCatalog.Proofs.Source.Excerpt
import TypeCatalog.Settings
