import SharpArch.Domain.EntityHistory
import SharpArch.Domain.SpecificationTrees
import SharpArch.NHibernate.DataAnnotationsEventListener
import SharpArch.NHibernate.FalseDuplicates
import SharpArch.Web.SharedSession
import SharpArch.RavenDb.RequestBody
import SharpArch.Web.AtomicRequest
import SharpArch.Domain.GraphTermination
import SharpArch.Domain.UncachedHashCodes
import SharpArch.Domain.EntitySets
import SharpArch.NHibernate.MissedDuplicates
import SharpArch.NHibernate.TextSignatures
import SharpArch.Foundation.FairRun
import SharpArch.NHibernate.CheckerExceptions
import SharpArch.NHibernate.FlushModes
import SharpArch.Web.ApplyTransactionFilterBase
import SharpArch.Web.ActionFilters
import SharpArch.Domain.NullCriteria
import SharpArch.Domain.Repositories
import SharpArch.Infrastructure.EnabledLogger
import SharpArch.NHibernate.PropertyQueries
import SharpArch.NHibernate.NHibernateRepository
import SharpArch.RavenDb.StoredDocuments
import SharpArch.Repositories.RepositoryContract
import SharpArch.RavenDb.DocumentReads
import SharpArch.Web.ConcurrentRequests
import SharpArch.Web.NHibernateRequest
import SharpArch.Testing.DatabaseTests
import SharpArch.Domain.ConcurrentSignatures
import SharpArch.TardisBank.Family
import SharpArch.NHibernate.UniqueSignatures
import SharpArch.TardisBank.Announcements
import SharpArch.Testing.TestDatabaseSetup
import SharpArch.NHibernate.SessionPerScope
import SharpArch.NHibernate.SignatureRaces
import SharpArch.TardisBank.Activation
